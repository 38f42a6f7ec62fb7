import Reporting.Text.Blank
import Reporting.Text.Reader
import Reporting.Time.Printer

/-!
# Proofs/Text/Reader — digits that are read back

A number written with zeros in front up to a width is read back from its digits, as long as a reader
stops where they end: because it takes no more, or because something else follows.
-/

namespace Reporting

namespace Text

/-! ## Readers -/

/-- No digit is white space. -/
theorem isBlank_of_isDigit {c : Char} (h : c.isDigit) : isBlank c = false := by
  obtain ⟨hlow, hhigh⟩ : 48 ≤ c.toNat ∧ c.toNat ≤ 57 := by
    simp only [Char.isDigit, Bool.and_eq_true, decide_eq_true_eq] at h
    exact h
  simp only [isBlank, Bool.or_eq_false_iff, Bool.and_eq_false_iff, decide_eq_false_iff_not,
    beq_eq_false_iff_ne]
  omega

/-- White space is dropped only where there is some. -/
theorem trimStart_cons {c : Char} (h : isBlank c = false) (rest : List Char) :
    trimStart (c :: rest) = c :: rest := by
  simp [trimStart, h]

/-- Characters of a kind at the start of a text go as far as something else follows. -/
theorem takeWhile_append_of_head? {p : Char → Bool} {front rest : List Char} (hfront : ∀ c ∈ front, p c)
    (hrest : ∀ c ∈ rest.head?, p c = false) : (front ++ rest).takeWhile p = front := by
  have hstop : rest.takeWhile p = [] := by
    cases rest with
    | nil => rfl
    | cons c rest => rw [List.takeWhile_cons, hrest c rfl]; rfl
  rw [List.takeWhile_append_of_pos hfront, hstop, List.append_nil]

theorem dropWhile_append_of_head? {p : Char → Bool} {front rest : List Char} (hfront : ∀ c ∈ front, p c)
    (hrest : ∀ c ∈ rest.head?, p c = false) : (front ++ rest).dropWhile p = rest := by
  rw [List.dropWhile_append_of_pos hfront]
  cases rest with
  | nil => rfl
  | cons c rest => rw [List.dropWhile_cons, hrest c rfl]; rfl

/-- **Digits are read up to where they end.** -/
theorem number_append {least most : Nat} {ds rest : List Char} (hdigits : ∀ c ∈ ds, c.isDigit)
    (hleast : least ≤ ds.length) (hmost : ds.length ≤ most)
    (hend : ds.length = most ∨ ∀ c ∈ rest.head?, c.isDigit = false) :
    number least most (ds ++ rest) = some (digitsValue ds, rest) := by
  have hstop : ∀ c ∈ (rest.take (most - ds.length)).head?, c.isDigit = false := by
    rw [List.head?_take]
    split
    · exact nofun
    · exact hend.resolve_left (by omega)
  have htake : ((ds ++ rest).take most).takeWhile Char.isDigit = ds := by
    rw [List.take_append, List.take_of_length_le hmost, takeWhile_append_of_head? hdigits hstop]
  simp only [number, htake, if_neg (Nat.not_lt.2 hleast), List.drop_left]

end Text

/-! ## Padding -/

namespace Time

-- Powers are those of natural numbers, whatever else has powers.
attribute [local instance (high)] instPowNat

variable {width n : Nat}

theorem isDigit_of_mem_padded {c : Char} (h : c ∈ padded width n) : c.isDigit := by
  rw [padded, List.mem_append] at h
  rcases h with h | h
  · rw [List.eq_of_mem_replicate h]
    rfl
  · exact Nat.isDigit_of_mem_toDigits (by decide) (by decide) h

/-- **Zeros in front count for nothing.** -/
theorem digitsValue_padded (width n : Nat) : Text.digitsValue (padded width n) = n := by
  rw [Text.digitsValue, padded, Nat.ofDigitChars_append, Nat.ofDigitChars_replicate_zero,
    Nat.mul_zero]
  exact Nat.ofDigitChars_ten_toDigits

/-- A number that has its place in a width is as long as that. -/
theorem length_padded (hwidth : 0 < width) (h : n < 10 ^ width) :
    (padded width n).length = width := by
  have hle := (Nat.length_toDigits_le_iff (b := 10) (by decide) hwidth).2 h
  simp only [padded, List.length_append, List.length_replicate, Double.decimalDigits]
  omega

theorem le_length_padded (width n : Nat) : width ≤ (padded width n).length := by
  simp only [padded, List.length_append, List.length_replicate]
  omega

/-- A padded number begins with a digit. -/
theorem exists_padded_eq_cons (hwidth : 0 < width) (n : Nat) :
    ∃ c rest, padded width n = c :: rest ∧ c.isDigit := by
  have hle := le_length_padded width n
  cases heq : padded width n with
  | nil =>
    rw [heq] at hle
    exact absurd hwidth (Nat.not_lt.2 hle)
  | cons c rest => exact ⟨c, rest, rfl, isDigit_of_mem_padded (heq ▸ List.mem_cons_self)⟩

/-- **A padded number is read back.** -/
theorem number_padded {least most : Nat} {rest : List Char} (hleast : least ≤ width)
    (hmost : (padded width n).length ≤ most)
    (hend : (padded width n).length = most ∨ ∀ c ∈ rest.head?, c.isDigit = false) :
    Text.number least most (padded width n ++ rest) = some (n, rest) := by
  rw [Text.number_append (fun _ => isDigit_of_mem_padded)
    (Nat.le_trans hleast (le_length_padded width n)) hmost hend, digitsValue_padded]

end Time

end Reporting
