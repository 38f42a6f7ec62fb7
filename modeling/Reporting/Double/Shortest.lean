import Reporting.Double.Reading

/-!
# Double/Shortest — the fewest digits that read back

A double is written with the shortest decimal that reads back as it.  That decimal is looked for on
grids of one, two, … significant digits.  On each grid only the two points next to the double can
read back, and the first grid on which one does wins; of two points the nearer one is taken.
Seventeen digits are always enough, so the full expansion that would be taken after them never is.
-/

namespace Reporting.Double

-- Powers are those of natural numbers, whatever else has powers.
attribute [local instance (high)] instPowNat

/-- A decimal `digits · 10 ^ exponent`. -/
structure Decimal where
  digits : Nat
  exponent : Int
  deriving DecidableEq, Repr

namespace Decimal

/-- The magnitude that a decimal reads as. -/
def magnitude (d : Decimal) : Nat := decimalMagnitude d.digits d.exponent

/-- Drops zeros at the end of the digits; the fuel bounds their number. -/
def trim : Nat → Decimal → Decimal
  | 0, d => d
  | fuel + 1, d =>
    if d.digits ≠ 0 ∧ d.digits % 10 = 0 then trim fuel ⟨d.digits / 10, d.exponent + 1⟩ else d

end Decimal

/-- Which of two equally near decimals is taken. -/
inductive Tie
  | even
  | up
  deriving DecidableEq, Repr

/-- How many decimal digits a number is written with. -/
def digitCount (n : Nat) : Nat := (Nat.toDigits 10 n).length

/-- The number of digits that a fraction has before its point; below one tenth it is less than zero
by the number of zeros behind the point. -/
def placesOf (numerator denominator : Nat) : Int :=
  if denominator ≤ numerator then digitCount (numerator / denominator)
  else
    let n := digitCount (denominator / numerator)
    if denominator ≤ numerator * 10 ^ (n - 1) then 2 - n else 1 - n

/-- The nearer of two neighbours on a grid, given the lower one and how far beyond it a number is, as
a fraction of their distance. -/
def nearer (tie : Tie) (below remainder distance : Nat) : Nat :=
  if 2 * remainder < distance then below
  else if distance < 2 * remainder then below + 1
  else
    match tie with
    | .even => if below % 2 = 0 then below else below + 1
    | .up => below + 1

/-- The point of the grid `10 ^ exponent` that reads back as a double, the nearer one of two. -/
def onGrid? (tie : Tie) (bits : Nat) (exponent : Int) : Option Nat :=
  let numerator := units bits * 10 ^ (-exponent).toNat
  let distance := oneInUnits * 10 ^ exponent.toNat
  let below := numerator / distance
  let readsBack (digits : Nat) : Bool := decimalMagnitude digits exponent = bits
  if readsBack below then
    if readsBack (below + 1) then some (nearer tie below (numerator % distance) distance)
    else some below
  else if readsBack (below + 1) then some (below + 1)
  else none

/-- A double in full. -/
def expansion (bits : Nat) : Decimal := ⟨units bits * 5 ^ unitPlaces, -unitPlaces⟩

/-- Looks at the grids of `n`, `n + 1`, … digits, as many as the fuel says, given the number of
digits before the point. -/
def search (tie : Tie) (bits : Nat) (places : Int) : Nat → Nat → Decimal
  | 0, _ => expansion bits
  | fuel + 1, n =>
    match onGrid? tie bits (places - n) with
    | some digits => Decimal.trim (digitCount digits) ⟨digits, places - n⟩
    | none => search tie bits places fuel (n + 1)

/-- The shortest decimal that reads back as the double of a magnitude, the nearest one of that
length. -/
def shortest (tie : Tie) (bits : Nat) : Decimal :=
  if bits = 0 then ⟨0, 0⟩ else search tie bits (placesOf (units bits) oneInUnits) 17 1

/-! ## Reading back -/

/-- A fraction may be expanded before it is rounded. -/
theorem nearest_expand (numerator denominator : Nat) {factor : Nat} (hf : 0 < factor) :
    nearest (numerator * factor) (denominator * factor) = nearest numerator denominator := by
  have hquot : numerator * factor / (denominator * factor) = numerator / denominator :=
    Nat.mul_div_mul_right _ _ hf
  have hstep (shift : Nat) :
      denominator * factor * 2 ^ shift = denominator * 2 ^ shift * factor := by
    rw [Nat.mul_right_comm]
  simp only [nearest, hquot, hstep, Nat.mul_div_mul_right _ _ hf, Nat.mul_mod_mul_right]
  have hlt (a b : Nat) : 2 * (a * factor) < b * factor ↔ 2 * a < b := by
    rw [← Nat.mul_assoc]
    exact Nat.mul_lt_mul_right hf
  have heq (a b : Nat) : 2 * (a * factor) = b * factor ↔ 2 * a = b := by
    rw [← Nat.mul_assoc]
    exact Nat.mul_left_inj (Nat.ne_of_gt hf)
  simp only [hlt, heq]

/-- A zero at the end of the digits may go into the exponent. -/
theorem decimalMagnitude_shift (digits : Nat) (exponent : Int) :
    decimalMagnitude (digits * 10) exponent = decimalMagnitude digits (exponent + 1) := by
  simp only [decimalMagnitude]
  by_cases h0 : 0 ≤ exponent
  · have h1 : 0 ≤ exponent + 1 := by omega
    have h2 : (exponent + 1).toNat = exponent.toNat + 1 := by omega
    simp only [h0, h1, if_true, h2, Nat.pow_succ]
    congr 2
    rw [Nat.mul_assoc, Nat.mul_comm 10]
  · by_cases h1 : 0 ≤ exponent + 1
    · have h2 : exponent = -1 := by omega
      subst h2
      have := nearest_expand (digits * oneInUnits) 1 (by decide : 0 < 10)
      simpa [Nat.mul_right_comm] using this
    · have h2 : (-exponent).toNat = (-(exponent + 1)).toNat + 1 := by omega
      simp only [h0, h1, if_false, h2, Nat.pow_succ]
      rw [Nat.mul_right_comm]
      exact nearest_expand _ _ (by decide)

theorem Decimal.magnitude_trim (fuel : Nat) (d : Decimal) :
    (trim fuel d).magnitude = d.magnitude := by
  induction fuel generalizing d with
  | zero => rfl
  | succ fuel ih =>
    simp only [trim]
    split
    · rename_i h
      rw [ih]
      have hd : d.digits / 10 * 10 = d.digits := by omega
      have := decimalMagnitude_shift (d.digits / 10) d.exponent
      rw [hd] at this
      exact this.symm
    · rfl

theorem decimalMagnitude_of_onGrid? {tie : Tie} {bits : Nat} {exponent : Int} {digits : Nat}
    (h : onGrid? tie bits exponent = some digits) : decimalMagnitude digits exponent = bits := by
  simp only [onGrid?, decide_eq_true_eq] at h
  split at h
  · rename_i hlow
    split at h
    · rename_i hhigh
      simp only [Option.some.injEq] at h
      subst h
      simp only [nearer]
      split
      · exact hlow
      · split
        · exact hhigh
        · cases tie
          · simp only
            split
            · exact hlow
            · exact hhigh
          · exact hhigh
    · simp only [Option.some.injEq] at h
      exact h ▸ hlow
  · split at h
    · rename_i hhigh
      simp only [Option.some.injEq] at h
      exact h ▸ hhigh
    · simp at h

theorem magnitude_expansion (bits : Nat) : (expansion bits).magnitude = bits := by
  have hten : 5 ^ unitPlaces * oneInUnits = 10 ^ unitPlaces := by
    rw [oneInUnits, ← Nat.mul_pow]
  have hne : unitPlaces ≠ 0 := by
    unfold unitPlaces
    decide
  have := nearest_units bits (Nat.pow_pos (by decide) : 0 < 10 ^ unitPlaces)
  simpa [expansion, Decimal.magnitude, decimalMagnitude, hne, Nat.mul_assoc, hten] using this

theorem magnitude_search (tie : Tie) (bits : Nat) (places : Int) (fuel n : Nat) :
    (search tie bits places fuel n).magnitude = bits := by
  induction fuel generalizing n with
  | zero => exact magnitude_expansion bits
  | succ fuel ih =>
    simp only [search]
    split
    · rename_i digits h
      rw [Decimal.magnitude_trim]
      exact decimalMagnitude_of_onGrid? h
    · exact ih (n + 1)

/-- **The shortest decimal reads back** — as the very double it was made from. -/
theorem magnitude_shortest (tie : Tie) (bits : Nat) : (shortest tie bits).magnitude = bits := by
  simp only [shortest]
  split
  · rename_i h
    subst h
    have hzero : units 0 = 0 := rfl
    have := nearest_units 0 (by decide : 0 < 1)
    simpa [Decimal.magnitude, decimalMagnitude, hzero] using this
  · exact magnitude_search ..

end Reporting.Double
