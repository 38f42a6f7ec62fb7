import Reporting.Double.Basic

/-!
# Double/Rounding — the double nearest to a fraction

The doubles that are not negative are numbered by their magnitude.  Each is a whole number of units
of `2 ^ -1074`, the distance from zero to the next double, and `units` tells how many.  `nearest`
goes the other way: it rounds a fraction, given in units, to a magnitude, a half to the even one.
`nearest_units` shows that doubles round to themselves.
-/

namespace Reporting.Double

-- Powers are those of natural numbers, whatever else has powers.
attribute [local instance (high)] instPowNat

/-- How often one is halved to make a unit. -/
@[irreducible] def unitPlaces : Nat := 1074

/-- The number of units that one is. -/
def oneInUnits : Nat := 2 ^ unitPlaces

theorem oneInUnits_pos : 0 < oneInUnits := Nat.two_pow_pos unitPlaces

/-- The number of binary digits of a significand behind the first one. -/
def fractionBits : Nat := 52

/-- The number of magnitudes from one power of two to the next. -/
def binade : Nat := 0x10000000000000

theorem binade_eq : binade = 2 ^ fractionBits := rfl

theorem two_mul_binade : 2 * binade = 2 ^ (fractionBits + 1) := rfl

/-- The number of units that the double of a magnitude is. -/
def units (bits : Nat) : Nat :=
  if bits < 2 * binade then bits else (binade + bits % binade) * 2 ^ (bits / binade - 1)

/-- The number of units that a double is, below zero if it is negative. -/
def exact (x : Float) : Int :=
  if isNegative x then -(units (magnitude x) : Int) else units (magnitude x)

/-- The magnitude of the double nearest to `numerator / denominator` units.  The quotient is cut
down to 53 binary digits; the magnitude counts the digits cut off in its upper part, and rounding up
a significand of ones carries into that part. -/
def nearest (numerator denominator : Nat) : Nat :=
  let shift := (numerator / denominator).log2 - fractionBits
  let step := denominator * 2 ^ shift
  let below := numerator / step
  let twice := 2 * (numerator % step)
  let carry := if twice < step ∨ (twice = step ∧ below % 2 = 0) then 0 else 1
  shift * binade + below + carry

/-- A significand that fits, shifted to the left, rounds to itself. -/
theorem nearest_of_multiple (significand shift : Nat) {denominator : Nat} (hd : 0 < denominator)
    (hlow : shift ≠ 0 → binade ≤ significand) (hhigh : significand < 2 * binade) :
    nearest (significand * 2 ^ shift * denominator) denominator =
      shift * binade + significand := by
  have hquot : significand * 2 ^ shift * denominator / denominator = significand * 2 ^ shift :=
    Nat.mul_div_cancel _ hd
  have hshift : (significand * 2 ^ shift).log2 - fractionBits = shift := by
    by_cases h0 : significand = 0
    · have hs : shift = 0 := by
        by_cases hs : shift = 0
        · exact hs
        · have := hlow hs
          simp only [binade] at this
          omega
      subst h0 hs
      rfl
    · have hpow := Nat.two_pow_pos shift
      have hpos : significand * 2 ^ shift ≠ 0 := Nat.ne_of_gt (Nat.mul_pos (by omega) hpow)
      have hlt : (significand * 2 ^ shift).log2 < fractionBits + 1 + shift := by
        rw [Nat.log2_lt hpos, Nat.pow_add]
        exact Nat.mul_lt_mul_of_pos_right (two_mul_binade ▸ hhigh) hpow
      by_cases hs : shift = 0
      · omega
      · have hle : fractionBits + shift ≤ (significand * 2 ^ shift).log2 := by
          rw [Nat.le_log2 hpos, Nat.pow_add]
          exact Nat.mul_le_mul_right _ (binade_eq ▸ hlow hs)
        omega
  have hstep : 0 < denominator * 2 ^ shift := Nat.mul_pos hd (Nat.two_pow_pos shift)
  have hmul : significand * 2 ^ shift * denominator = significand * (denominator * 2 ^ shift) := by
    rw [Nat.mul_assoc, Nat.mul_comm (2 ^ shift)]
  simp only [nearest, hquot, hshift]
  rw [hmul, Nat.mul_div_cancel _ hstep, Nat.mul_mod_left]
  simp [hstep]

/-- **Doubles round to themselves** — whatever the denominator. -/
theorem nearest_units (bits : Nat) {denominator : Nat} (hd : 0 < denominator) :
    nearest (units bits * denominator) denominator = bits := by
  by_cases h : bits < 2 * binade
  · have := nearest_of_multiple bits 0 hd (fun h => absurd rfl h) h
    rw [Nat.pow_zero, Nat.mul_one, Nat.zero_mul, Nat.zero_add] at this
    rw [units, if_pos h, this]
  · have hmod : bits % binade < binade := Nat.mod_lt _ (by decide)
    have := nearest_of_multiple (binade + bits % binade) (bits / binade - 1) hd (by omega)
      (by omega)
    rw [units, if_neg h, this]
    simp only [binade] at h ⊢
    omega

/-- What is less than half a unit rounds to zero. -/
theorem nearest_eq_zero {numerator denominator : Nat} (h : 2 * numerator < denominator) :
    nearest numerator denominator = 0 := by
  have hquot : numerator / denominator = 0 := Nat.div_eq_of_lt (by omega)
  have hmod : numerator % denominator = numerator := Nat.mod_eq_of_lt (by omega)
  simp [nearest, hquot, hmod, h]

/-- The magnitude of a fraction with `53 + shift` binary digits or more. -/
theorem le_nearest {numerator denominator shift : Nat} (hd : 0 < denominator)
    (h : 2 ^ (fractionBits + shift) * denominator ≤ numerator) :
    (shift + 1) * binade ≤ nearest numerator denominator := by
  have hquot : 2 ^ (fractionBits + shift) ≤ numerator / denominator :=
    (Nat.le_div_iff_mul_le hd).2 h
  have hpos : numerator / denominator ≠ 0 := by
    have := Nat.two_pow_pos (fractionBits + shift)
    omega
  have hlog : fractionBits + shift ≤ (numerator / denominator).log2 := (Nat.le_log2 hpos).2 hquot
  obtain ⟨cut, hcut⟩ : ∃ cut, (numerator / denominator).log2 = fractionBits + cut :=
    ⟨(numerator / denominator).log2 - fractionBits, by omega⟩
  have hself : 2 ^ (fractionBits + cut) ≤ numerator / denominator :=
    (Nat.le_log2 hpos).1 (Nat.le_of_eq hcut.symm)
  have hbelow : binade ≤ numerator / (denominator * 2 ^ cut) := by
    rw [← Nat.div_div_eq_div_mul, Nat.le_div_iff_mul_le (Nat.two_pow_pos _), binade_eq,
      ← Nat.pow_add]
    exact hself
  have hmul : shift * binade ≤ cut * binade := Nat.mul_le_mul_right _ (by omega)
  simp only [nearest, hcut, Nat.add_sub_cancel_left]
  rw [Nat.succ_mul]
  omega

/-- The integer that a double is, if it is one. -/
def integer? (x : Float) : Option Int :=
  let n := units (magnitude x)
  if isFinite x ∧ n % oneInUnits = 0 then
    some (if isNegative x then -(n / oneInUnits : Nat) else (n / oneInUnits : Nat))
  else none

end Reporting.Double
