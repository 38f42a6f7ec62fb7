/-!
# Text/Digits — digits and the numbers they stand for
-/

namespace Reporting.Text

/-- The value of a hexadecimal digit. -/
def hexDigit? (c : Char) : Option Nat :=
  if '0' ≤ c ∧ c ≤ '9' then some (c.toNat - '0'.toNat)
  else if 'a' ≤ c ∧ c ≤ 'f' then some (c.toNat - 'a'.toNat + 10)
  else if 'A' ≤ c ∧ c ≤ 'F' then some (c.toNat - 'A'.toNat + 10)
  else none

/-- The number that digits of a base stand for.  What is no digit counts as zero. -/
def digitsValueIn (base : Nat) (ds : List Char) : Nat :=
  ds.foldl (fun n d => base * n + (hexDigit? d).getD 0) 0

/-- The number that decimal digits stand for. -/
def digitsValue (ds : List Char) : Nat := Nat.ofDigitChars 10 ds 0

/-- The digits of a number stand for it. -/
theorem digitsValue_toDigits (n : Nat) : digitsValue (Nat.toDigits 10 n) = n :=
  Nat.ofDigitChars_ten_toDigits

end Reporting.Text
