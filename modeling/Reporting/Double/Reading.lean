import Reporting.Double.Rounding

/-!
# Double/Reading — numbers as doubles

A decimal or an integer stands for the double nearest to it.  A decimal so large that only infinity
is nearest has no value.
-/

namespace Reporting.Double

-- Powers are those of natural numbers, whatever else has powers.
attribute [local instance (high)] instPowNat

/-- The magnitude of the double nearest to `digits · 10 ^ exponent`. -/
def decimalMagnitude (digits : Nat) (exponent : Int) : Nat :=
  if 0 ≤ exponent then nearest (digits * 10 ^ exponent.toNat * oneInUnits) 1
  else nearest (digits * oneInUnits) (10 ^ (-exponent).toNat)

/-- The double nearest to `digits · 10 ^ exponent` with a sign, none when it is too large.  A decimal
of more than 400 places to the left of the point is larger than every double, and one that begins
more than 400 places to the right of it is nearest to zero, so neither needs a power of ten worked
out.  Every decimal is rounded correctly, where a reader that trades this for speed, as those of JSON
libraries may by default, can be one unit in the last place off. -/
def ofDecimal? (negative : Bool) (digits : Nat) (exponent : Int) : Option Float :=
  let places := (Nat.toDigits 10 digits).length + exponent
  if digits = 0 ∨ places < -400 then some (ofMagnitude negative 0)
  else if 400 < places then none
  else
    let bits := decimalMagnitude digits exponent
    if bits < infinityBits then some (ofMagnitude negative bits) else none

/-- A power of ten and the power of two with three times as many factors. -/
theorem two_pow_le_ten_pow {m n : Nat} (h : m ≤ 3 * n) : 2 ^ m ≤ 10 ^ n :=
  calc 2 ^ m ≤ 2 ^ (3 * n) := Nat.pow_le_pow_right (by decide) h
    _ = 8 ^ n := Nat.pow_mul ..
    _ ≤ 10 ^ n := Nat.pow_le_pow_left (by decide) n

/-- A decimal that begins far to the right of the point reads as zero. -/
theorem decimalMagnitude_eq_zero {digits far : Nat} {exponent : Int} (hfar : unitPlaces < 3 * far)
    (h : (Nat.toDigits 10 digits).length + far < -exponent) :
    decimalMagnitude digits exponent = 0 := by
  have hneg : ¬ 0 ≤ exponent := by omega
  simp only [decimalMagnitude, hneg, if_false]
  apply nearest_eq_zero
  have hlt : digits < 10 ^ (Nat.toDigits 10 digits).length :=
    (Nat.length_toDigits_le_iff (by decide) Nat.length_toDigits_pos).1 (Nat.le_refl _)
  have hunit : 2 * oneInUnits ≤ 10 ^ far := by
    have : 2 * oneInUnits = 2 ^ (unitPlaces + 1) := by
      rw [Nat.pow_succ, Nat.mul_comm, oneInUnits]
    rw [this]
    exact two_pow_le_ten_pow hfar
  calc 2 * (digits * oneInUnits) = digits * (2 * oneInUnits) := Nat.mul_left_comm ..
    _ ≤ digits * 10 ^ far := Nat.mul_le_mul_left _ hunit
    _ < 10 ^ (Nat.toDigits 10 digits).length * 10 ^ far :=
      Nat.mul_lt_mul_of_pos_right hlt (Nat.pow_pos (by decide))
    _ = 10 ^ ((Nat.toDigits 10 digits).length + far) := (Nat.pow_add ..).symm
    _ ≤ 10 ^ (-exponent).toNat := Nat.pow_le_pow_right (by decide) (by omega)

/-- A number other than zero is at least the power of ten that its first digit counts. -/
theorem ten_pow_le_of_length {digits n : Nat} (hd : digits ≠ 0)
    (h : (Nat.toDigits 10 digits).length = n + 1) : 10 ^ n ≤ digits := by
  cases n with
  | zero => exact Nat.pos_of_ne_zero hd
  | succ n =>
    have := mt (Nat.length_toDigits_le_iff (b := 10) (by decide) (Nat.succ_pos n)).2
      (by omega : ¬ (Nat.toDigits 10 digits).length ≤ n + 1)
    omega

/-- A decimal that begins far to the left of the point is beyond many binary digits. -/
theorem le_decimalMagnitude {digits far shift : Nat} {exponent : Int} (hd : digits ≠ 0)
    (hfar : fractionBits + shift ≤ 3 * far + unitPlaces)
    (h : far < (Nat.toDigits 10 digits).length + exponent) :
    (shift + 1) * binade ≤ decimalMagnitude digits exponent := by
  have hlarge : 2 ^ (fractionBits + shift) ≤ 10 ^ far * oneInUnits :=
    calc 2 ^ (fractionBits + shift) ≤ 2 ^ (3 * far + unitPlaces) := Nat.pow_le_pow_right (by decide) hfar
      _ = 2 ^ (3 * far) * oneInUnits := Nat.pow_add ..
      _ ≤ 10 ^ far * oneInUnits :=
        Nat.mul_le_mul_right _ (two_pow_le_ten_pow (Nat.le_refl _))
  obtain ⟨n, hn⟩ : ∃ n, (Nat.toDigits 10 digits).length = n + 1 :=
    ⟨(Nat.toDigits 10 digits).length - 1, by have := @Nat.length_toDigits_pos 10 digits; omega⟩
  have hge : 10 ^ n ≤ digits := ten_pow_le_of_length hd hn
  simp only [decimalMagnitude]
  split
  · apply le_nearest (by decide)
    have hexp : far ≤ n + exponent.toNat := by omega
    calc 2 ^ (fractionBits + shift) * 1 ≤ 10 ^ far * oneInUnits := by rw [Nat.mul_one]; exact hlarge
      _ ≤ 10 ^ (n + exponent.toNat) * oneInUnits :=
        Nat.mul_le_mul_right _ (Nat.pow_le_pow_right (by decide) hexp)
      _ = 10 ^ n * 10 ^ exponent.toNat * oneInUnits := by rw [Nat.pow_add]
      _ ≤ digits * 10 ^ exponent.toNat * oneInUnits :=
        Nat.mul_le_mul_right _ (Nat.mul_le_mul_right _ hge)
  · apply le_nearest (Nat.pow_pos (by decide))
    have hexp : far + (-exponent).toNat ≤ n := by omega
    calc 2 ^ (fractionBits + shift) * 10 ^ (-exponent).toNat
        ≤ 10 ^ far * oneInUnits * 10 ^ (-exponent).toNat := Nat.mul_le_mul_right _ hlarge
      _ = 10 ^ (far + (-exponent).toNat) * oneInUnits := by
        rw [Nat.pow_add, Nat.mul_right_comm]
      _ ≤ 10 ^ n * oneInUnits := Nat.mul_le_mul_right _ (Nat.pow_le_pow_right (by decide) hexp)
      _ ≤ digits * oneInUnits := Nat.mul_le_mul_right _ hge

/-- Zero reads as zero, however it is scaled. -/
theorem decimalMagnitude_zero (exponent : Int) : decimalMagnitude 0 exponent = 0 := by
  simp only [decimalMagnitude, Nat.zero_mul]
  split
  · exact nearest_eq_zero (by decide)
  · exact nearest_eq_zero (Nat.pow_pos (by decide))

/-- **A decimal is read as the nearest double** — the two bounds only save work. -/
theorem ofDecimal?_eq (negative : Bool) (digits : Nat) (exponent : Int) :
    ofDecimal? negative digits exponent =
      if decimalMagnitude digits exponent < infinityBits then
        some (ofMagnitude negative (decimalMagnitude digits exponent))
      else none := by
  simp only [ofDecimal?]
  split
  · rename_i h
    have hm : decimalMagnitude digits exponent = 0 := by
      rcases h with rfl | h
      · exact decimalMagnitude_zero exponent
      · have hfar : unitPlaces < 3 * 400 := by unfold unitPlaces; decide
        exact decimalMagnitude_eq_zero hfar (by omega)
    simp [hm, infinityBits]
  · rename_i h
    split
    · rename_i hbig
      have hbound : fractionBits + 2046 ≤ 3 * 400 + unitPlaces := by unfold unitPlaces; decide
      have : infinityBits ≤ decimalMagnitude digits exponent :=
        le_decimalMagnitude (by omega) hbound hbig
      simp [Nat.not_lt.2 this]
    · rfl

/-- **What is read is a real number** — a decimal that only infinity is near has no value. -/
theorem isFinite_of_ofDecimal? {negative : Bool} {digits : Nat} {exponent : Int} {x : Float}
    (h : ofDecimal? negative digits exponent = some x) : isFinite x := by
  rw [ofDecimal?_eq] at h
  split at h
  · rename_i hlt
    obtain rfl := Option.some.inj h
    rw [isFinite, magnitude_ofMagnitude, Nat.min_eq_left (Nat.le_of_lt hlt)]
    exact decide_eq_true hlt
  · cases h

/-- The double nearest to a natural number. -/
def ofNat (n : Nat) : Float := ofMagnitude false (nearest (n * oneInUnits) 1)

/-- The double nearest to an integer. -/
def ofInt (n : Int) : Float := ofMagnitude (n < 0) (nearest (n.natAbs * oneInUnits) 1)

end Reporting.Double
