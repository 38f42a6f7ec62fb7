import Reporting.Time.Calendar

/-!
# Proofs/Time/Calendar — every day has its date

The date of a day is found by guessing its year, correcting the guess, and counting off months.  It is
in the calendar (`isValid_ofDay`) and its day is the one that was asked for (`day_ofDay`).
-/

namespace Reporting.Time

/-! ## Years -/

/-- A year has 365 days, and one more if it is a leap year. -/
theorem daysBeforeYear_succ (year : Int) :
    daysBeforeYear (year + 1) = daysBeforeYear year + if isLeapYear year then 366 else 365 := by
  simp only [daysBeforeYear, isLeapYear, Bool.and_eq_true, Bool.or_eq_true, decide_eq_true_eq]
  split <;> omega

/-- **The guess at a year is right or beside it**, so a day falls in the corrected year. -/
theorem daysBeforeYear_yearOfDay (n : Int) :
    daysBeforeYear (yearOfDay n) ≤ n ∧ n < daysBeforeYear (yearOfDay n + 1) := by
  have hlow : daysBeforeYear (n * 400 / 146097 - 1) ≤ n := by
    simp only [daysBeforeYear]
    omega
  have hhigh : n < daysBeforeYear (n * 400 / 146097 + 1 + 1) := by
    simp only [daysBeforeYear]
    omega
  simp only [yearOfDay]
  split
  · rename_i h
    exact ⟨hlow, by rwa [Int.sub_add_cancel]⟩
  · split
    · exact ⟨‹_›, hhigh⟩
    · omega

/-! ## Months -/

theorem length_monthLengths (year : Int) : (monthLengths year).length = 12 := rfl

theorem sum_monthLengths (year : Int) :
    ((monthLengths year).foldr (· + ·) 0 : Nat) = if isLeapYear year then 366 else 365 := by
  rw [monthLengths]
  cases isLeapYear year <;> rfl

/-- **Counting off months finds the month and the day in it.** -/
theorem monthOfDay_spec {lengths : List Nat} {n : Nat} (month : Nat)
    (h : n < lengths.foldr (· + ·) 0) :
    ∃ i dayOfMonth, monthOfDay month lengths n = (month + i, dayOfMonth) ∧ i < lengths.length ∧
      1 ≤ dayOfMonth ∧ dayOfMonth ≤ lengths.getD i 0 ∧
      (lengths.take i).foldr (· + ·) 0 + (dayOfMonth - 1) = n := by
  induction lengths generalizing month n with
  | nil => exact absurd h (Nat.not_lt_zero n)
  | cons length rest ih =>
    rw [List.foldr_cons] at h
    rw [monthOfDay]
    split
    · rename_i hlt
      exact ⟨0, n + 1, rfl, Nat.succ_pos _, Nat.succ_pos _, hlt, Nat.zero_add n⟩
    · rename_i hle
      have hrest : n - length < rest.foldr (· + ·) 0 := by omega
      obtain ⟨i, dayOfMonth, heq, hi, hpos, hle', hsum⟩ := ih (month + 1) hrest
      refine ⟨i + 1, dayOfMonth, ?_, Nat.succ_lt_succ hi, hpos, hle', ?_⟩
      · rw [heq, Nat.add_right_comm, Nat.add_assoc]
      · rw [List.take_succ_cons, List.foldr_cons]
        omega

/-! ## Dates -/

namespace Date

/-- The date of a day, and what is known of it. -/
theorem ofDay_spec (n : Int) : (ofDay n).isValid ∧ (ofDay n).day = n := by
  obtain ⟨hlow, hhigh⟩ := daysBeforeYear_yearOfDay (n + epochDay)
  rw [daysBeforeYear_succ] at hhigh
  have hdays : (n + epochDay - daysBeforeYear (yearOfDay (n + epochDay))).toNat <
      (monthLengths (yearOfDay (n + epochDay))).foldr (· + ·) 0 := by
    rw [sum_monthLengths]
    split at hhigh <;> simp_all <;> omega
  obtain ⟨i, dayOfMonth, heq, hi, hpos, hle, hsum⟩ := monthOfDay_spec 1 hdays
  rw [length_monthLengths] at hi
  have hofDay : ofDay n = ⟨yearOfDay (n + epochDay), 1 + i, dayOfMonth⟩ := by
    simp only [ofDay, heq]
  rw [hofDay]
  constructor
  · simp only [isValid, Nat.add_sub_cancel_left, Bool.and_eq_true, decide_eq_true_eq]
    omega
  · simp only [day, daysBeforeMonth, Nat.add_sub_cancel_left]
    omega

/-- **The date of a day is in the calendar.** -/
theorem isValid_ofDay (n : Int) : (ofDay n).isValid := (ofDay_spec n).1

/-- **The date of a day is that day's.** -/
theorem day_ofDay (n : Int) : (ofDay n).day = n := (ofDay_spec n).2

end Date

end Reporting.Time
