import Reporting.Proofs.Time.RoundTrip
import Reporting.Proofs.Value.Order
import Reporting.Value.Cell

/-!
# Proofs/Value/Cell — cells of result rows tell values apart

Values that suit one field are written alike only if they are equal for filters
(`Value.same_of_cell_eq`): an integral number as an integer or as a double by its size alone, and a
date as a text that is read back.  A real number is never written as null, so a cell without a value
is told apart as well (`cellsAlike_of_cellOrNull_eq`).  Nor are values that are equal ever written
differently: both zeros are the integer zero (`cellOrNull_eq_of_cellsAlike`).
-/

namespace Reporting.Value

/-- A cell that is not null and does not suit its field is malformed. -/
theorem ofCell_eq_error {type : FieldType} {cell : Json} (hnull : cell ≠ .null)
    (h : ofCell? type cell = none) : ofCell type cell = .error ⟨type, cell.kind⟩ := by
  rw [ofCell, h]
  exact hnull

theorem ofCell_eq_some_iff {type : FieldType} {cell : Json} {v : Value} :
    ofCell type cell = .ok (some v) ↔ ofCell? type cell = some v := by
  by_cases hnull : cell = .null
  · subst hnull
    cases type <;> simp [ofCell, ofCell?]
  · cases h : ofCell? type cell with
    | none => simp [ofCell_eq_error hnull h]
    | some w =>
      rw [ofCell, h, Except.ok.injEq]
      exact hnull

/-! ## Numbers -/

theorem ofInt_of_natAbs_le {n : Int} (h : n.natAbs ≤ largestInteger) :
    ∃ fits, Json.ofInt n = .number (.int n fits) := by
  have hfits : Json.Number.Fits n := by
    simp only [Json.Number.Fits, largestInteger, UInt64.size] at h ⊢
    omega
  exact ⟨hfits, dif_pos hfits⟩

theorem ofFloat_of_isFinite {x : Float} (h : Double.isFinite x) :
    Json.ofFloat x = .number (.float x h) := dif_pos h

/-- What a real number is written as: the integer that it is, or itself. -/
theorem numberCell_spec {x : Float} (h : Double.isFinite x) :
    (∃ n fits, Double.integer? x = some n ∧ numberCell x = .number (.int n fits)) ∨
      numberCell x = .number (.float x h) := by
  rw [numberCell]
  split
  · rename_i n hn
    split
    · rename_i hle
      obtain ⟨fits, heq⟩ := ofInt_of_natAbs_le hle
      exact .inl ⟨n, fits, hn, heq⟩
    · exact .inr (ofFloat_of_isFinite h)
  · exact .inr (ofFloat_of_isFinite h)

/-- **Real numbers are written alike only if they have the same value.** -/
theorem same_of_numberCell_eq {x y : Float} (hx : Double.isFinite x) (hy : Double.isFinite y)
    (h : numberCell x = numberCell y) : Double.same x y := by
  rcases numberCell_spec hx with ⟨n, _, hn, hcell⟩ | hcell
  · rcases numberCell_spec hy with ⟨m, _, hm, hcell'⟩ | hcell'
    · rw [hcell, hcell', Json.number.injEq, Json.Number.int.injEq] at h
      exact Double.same_of_integer? hn (h ▸ hm) hx hy
    · cases hcell.symm.trans (h.trans hcell')
  · rcases numberCell_spec hy with ⟨m, _, hm, hcell'⟩ | hcell'
    · cases hcell.symm.trans (h.trans hcell')
    · rw [hcell, hcell', Json.number.injEq, Json.Number.float.injEq] at h
      rw [h]
      exact (Double.same_iff_rank hy hy).2 rfl

/-! ## Values -/

variable {type : FieldType} {a b : Value}

/-- **Values are written alike only if they are equal.** -/
theorem same_of_cell_eq (ha : a.Suits type) (hb : b.Suits type) (h : a.cell = b.cell) :
    a.same b := by
  cases type with
  | text =>
    obtain ⟨s, rfl⟩ := ha.exists_text
    obtain ⟨t, rfl⟩ := hb.exists_text
    exact beq_iff_eq.2 (Json.string.inj h)
  | number =>
    obtain ⟨x, rfl, hx⟩ := ha.exists_number
    obtain ⟨y, rfl, hy⟩ := hb.exists_number
    exact same_of_numberCell_eq hx hy h
  | date =>
    obtain ⟨s, rfl⟩ := ha.exists_date
    obtain ⟨t, rfl⟩ := hb.exists_date
    exact beq_iff_eq.2 (Time.Instant.text_injective (Json.string.inj h))
  | boolean =>
    obtain ⟨s, rfl⟩ := ha.exists_bool
    obtain ⟨t, rfl⟩ := hb.exists_bool
    exact beq_iff_eq.2 (Json.bool.inj h)
  | enum =>
    obtain ⟨s, rfl⟩ := ha.exists_enum
    obtain ⟨t, rfl⟩ := hb.exists_enum
    exact beq_iff_eq.2 (Json.string.inj h)

theorem cell_ne_null (h : a.IsReal) : a.cell ≠ .null := by
  cases a with
  | number x =>
    rcases numberCell_spec (x := x) h with ⟨n, _, -, hcell⟩ | hcell
    · exact fun heq => by cases hcell.symm.trans heq
    · exact fun heq => by cases hcell.symm.trans heq
  | _ => exact fun heq => by cases heq

/-- **Cells are written alike only if they are alike.** -/
theorem cellsAlike_of_cellOrNull_eq {a b : Option Value} (ha : Cell.Suits type a)
    (hb : Cell.Suits type b) (h : cellOrNull a = cellOrNull b) : cellsAlike a b := by
  cases a with
  | none =>
    cases b with
    | none => rfl
    | some b => exact absurd h.symm (cell_ne_null (hb b rfl).isReal)
  | some a =>
    cases b with
    | none => exact absurd h (cell_ne_null (ha a rfl).isReal)
    | some b => exact same_of_cell_eq (ha a rfl) (hb b rfl) h

/-! ## What is written alike -/

/-- **Both zeros are written alike**, and so are any two doubles of one value. -/
theorem numberCell_eq_of_same {x y : Float} (h : Double.same x y) : numberCell x = numberCell y := by
  rcases Double.eq_or_zero_of_same h with rfl | ⟨hx, hy⟩
  · rfl
  · rw [numberCell, numberCell, Double.integer?_of_magnitude_eq_zero hx,
      Double.integer?_of_magnitude_eq_zero hy]
    rfl

/-- Equal values are written alike. -/
theorem cell_eq_of_same (h : a.same b) : a.cell = b.cell := by
  cases a <;> cases b <;> simp only [same, Bool.false_eq_true] at h
  case number.number => exact numberCell_eq_of_same h
  all_goals rw [eq_of_beq h]

/-- **Cells that are alike are written alike.** -/
theorem cellOrNull_eq_of_cellsAlike {a b : Option Value} (h : cellsAlike a b) :
    cellOrNull a = cellOrNull b := by
  cases a <;> cases b <;> simp only [cellsAlike, Bool.false_eq_true] at h
  case none.none => rfl
  case some.some => exact cell_eq_of_same h

end Reporting.Value
