import Reporting.Proofs.Double.Nearest
import Reporting.Proofs.Value.Cell

/-!
# Proofs/Value/ReadBack — rows as records

What is written into a result row may be read again as a cell of a record, under the type that it had.
Texts, truth values and enum values come back as they were, and numbers as doubles of the same value,
although an integral one goes out as an integer and comes back by rounding (`Double.same_ofInt`).  Dates
come back if their year has four digits.  A year beyond that carries its sign, which no record may have,
so such a date is malformed when it is read again (`ofCell_cell_iff`).
-/

namespace Reporting

namespace Value

variable {type : FieldType} {v : Value} {raw : Json}

/-- **A number is written as one of just its size, and that is read as a double of the same value.** -/
theorem exists_number_of_numberCell {x : Float} (h : Double.isFinite x) :
    ∃ n, numberCell x = .number n ∧ exactOf n = Double.exact x ∧ Double.same (doubleOf n) x := by
  rcases numberCell_spec h with ⟨n, fits, hn, hcell⟩ | hcell
  · exact ⟨.int n fits, hcell, (Double.exact_of_integer? hn).symm,
      Double.same_ofInt h hn (isFinite_doubleOf (.int n fits))⟩
  · exact ⟨.float x h, hcell, rfl, (Double.same_iff_rank h h).2 rfl⟩

/-- Whether a value is no date, or one whose year is written with four digits and no sign. -/
def HasPlainYear : Value → Prop
  | date t => t.HasPlainYear
  | _ => True

/-- **What is written of a value is read as an equal one**, unless it is a date whose year carries a
sign. -/
theorem exists_same_of_cell (hv : v.Suits type) (hyear : v.HasPlainYear) :
    ∃ w, ofCell? type v.cell = some w ∧ w.same v := by
  have hself : v.same v := (KeyPart.of_some_eq_iff hv hv).1 rfl
  cases type with
  | text =>
    obtain ⟨s, rfl⟩ := hv.exists_text
    exact ⟨_, rfl, hself⟩
  | number =>
    obtain ⟨x, rfl, hx⟩ := hv.exists_number
    obtain ⟨n, hcell, -, hsame⟩ := exists_number_of_numberCell hx
    exact ⟨.number (doubleOf n), by rw [cell, hcell]; rfl, hsame⟩
  | date =>
    obtain ⟨t, rfl⟩ := hv.exists_date
    refine ⟨_, ?_, hself⟩
    have hplain : t.HasPlainYear := hyear
    rw [cell, ofCell?, Time.Instant.ofRecord?_text, if_pos hplain]
    rfl
  | boolean =>
    obtain ⟨b, rfl⟩ := hv.exists_bool
    exact ⟨_, rfl, hself⟩
  | enum =>
    obtain ⟨s, rfl⟩ := hv.exists_enum
    exact ⟨_, rfl, hself⟩

/-- A date whose year carries a sign is malformed once it is written. -/
theorem ofCell_cell_of_not_hasPlainYear (hv : v.Suits type) (hyear : ¬ v.HasPlainYear) :
    ofCell type v.cell = .error ⟨.date, "string"⟩ := by
  cases v with
  | date t =>
    obtain rfl : type = .date := hv.type_eq.symm
    have hsigned : ¬ t.HasPlainYear := hyear
    have hread : ofCell? .date (.string t.text) = none := by
      rw [ofCell?, Time.Instant.ofRecord?_text, if_neg hsigned]
      rfl
    exact ofCell_eq_error (by simp [cell]) hread
  | _ => exact absurd trivial hyear

/-- **Values that are written are read back as equal ones**, but for dates whose years carry a sign: these
are malformed. -/
theorem ofCell_cell_iff (h : ofCell type raw = .ok (some v)) :
    ((∃ w, ofCell type v.cell = .ok (some w) ∧ w.same v) ↔ v.HasPlainYear) ∧
      (¬ v.HasPlainYear → ofCell type v.cell = .error ⟨.date, "string"⟩) := by
  have hv : v.Suits type := suits_of_ofCell? (ofCell_eq_some_iff.1 h)
  refine ⟨⟨?_, fun hyear => ?_⟩, ofCell_cell_of_not_hasPlainYear hv⟩
  · rintro ⟨w, hw, -⟩
    by_contra hyear
    rw [ofCell_cell_of_not_hasPlainYear hv hyear] at hw
    cases hw
  · obtain ⟨w, hw, hsame⟩ := exists_same_of_cell hv hyear
    exact ⟨w, ofCell_eq_some_iff.2 hw, hsame⟩

/-- The start of 1970 is read from milliseconds and comes back from its text. -/
theorem ofCell_cell_iff_epoch : ∃ v, ofCell .date (.ofInt 0) = .ok (some v) ∧
    v.cell = .string "1970-01-01T00:00:00+00:00" ∧
    ∃ w, ofCell .date v.cell = .ok (some w) ∧ w.same v := by
  obtain ⟨t, hread, hcell, hyear⟩ : ∃ t, ofCell .date (.ofInt 0) = .ok (some (date t)) ∧
      (date t).cell = .string "1970-01-01T00:00:00+00:00" ∧ t.HasPlainYear :=
    ⟨_, rfl, congrArg Json.string (by decide), by decide⟩
  exact ⟨date t, hread, hcell, (ofCell_cell_iff hread).1.2 hyear⟩

/-- The start of the year 10000 is read from milliseconds, and its text is malformed. -/
theorem not_readBack_year10000 : ∃ v, ofCell .date (.ofInt 253402300800000) = .ok (some v) ∧
    v.cell = .string "+10000-01-01T00:00:00+00:00" ∧
    ofCell .date v.cell = .error ⟨.date, "string"⟩ := by
  obtain ⟨t, hread, hcell, hyear⟩ : ∃ t,
      ofCell .date (.ofInt 253402300800000) = .ok (some (date t)) ∧
      (date t).cell = .string "+10000-01-01T00:00:00+00:00" ∧ ¬ t.HasPlainYear :=
    ⟨_, rfl, congrArg Json.string (by decide), by decide⟩
  exact ⟨date t, hread, hcell, ofCell_cell_of_not_hasPlainYear ⟨rfl, trivial⟩ hyear⟩

end Value

end Reporting
