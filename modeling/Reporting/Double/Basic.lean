/-!
# Double/Basic — what a double stands for

A double is a sign and a magnitude, which are read off its 64 bits.  The magnitude is a number that
rises with the absolute value, up to that of infinity; beyond lies only what is not a number.
Doubles are compared by `rank?`, an integer that rises with the value and gives both zeros the same
place, so every question of order is one about integers.
-/

namespace Reporting.Double

/-- The bit that holds the sign. -/
def signBit : Nat := 0x8000000000000000

/-- The magnitude bits of an infinity; those of a finite double are below. -/
def infinityBits : Nat := 0x7FF0000000000000

/-- The bits of a double without its sign. -/
def magnitude (x : Float) : Nat := x.toBits.toNat % signBit

/-- Whether the sign bit is set. -/
def isNegative (x : Float) : Bool := signBit ≤ x.toBits.toNat

/-- Whether a double is a real number. -/
def isFinite (x : Float) : Bool := magnitude x < infinityBits

/-- The place of a double in the order of all doubles, none for what is not a number. -/
def rank? (x : Float) : Option Int :=
  if magnitude x ≤ infinityBits then
    some (if isNegative x then -(magnitude x : Int) else magnitude x)
  else none

/-- Compares two doubles by value; what is not a number has no place. -/
def compare? (x y : Float) : Option Ordering :=
  match rank? x, rank? y with
  | some a, some b => some (compare a b)
  | _, _ => none

/-- Whether two doubles have the same value: both zeros do, and what is not a number has none. -/
def same (x y : Float) : Bool := compare? x y == some .eq

/-! ## Building doubles -/

/-- The bits of a double with a sign and a magnitude.  Nothing is beyond infinity. -/
def encode (negative : Bool) (bits : Nat) : Nat :=
  (if negative then signBit else 0) + min bits infinityBits

theorem encode_lt (negative : Bool) (bits : Nat) : encode negative bits < UInt64.size := by
  simp only [encode, signBit, infinityBits, UInt64.size]
  split <;> omega

/-- Up to infinity all bits are those of a real number or of infinity. -/
theorem valid_encode (negative : Bool) (bits : Nat) :
    Float.Model.Format.Valid .binary64 (UInt64.ofNat (encode negative bits)).toBitVec := by
  refine ⟨fun exponent fraction => absurd ?_ fraction⟩
  have hexp := congrArg BitVec.toNat exponent
  simp [Float.Model.UnpackedFloat.unpackExponent, BitVec.extractLsb,
    Nat.shiftRight_eq_div_pow] at hexp
  apply BitVec.eq_of_toNat_eq
  simp [Float.Model.UnpackedFloat.unpackMantissa, BitVec.extractLsb]
  simp only [encode, signBit, infinityBits] at hexp ⊢
  cases negative <;> simp at hexp ⊢ <;> omega

/-- The double with a sign and a magnitude. -/
def ofMagnitude (negative : Bool) (bits : Nat) : Float :=
  .ofModel ⟨UInt64.ofNat (encode negative bits), valid_encode negative bits⟩

theorem toNat_toBits_ofMagnitude (negative : Bool) (bits : Nat) :
    (ofMagnitude negative bits).toBits.toNat = encode negative bits :=
  UInt64.toNat_ofNat_of_lt' (encode_lt negative bits)

theorem magnitude_ofMagnitude (negative : Bool) (bits : Nat) :
    magnitude (ofMagnitude negative bits) = min bits infinityBits := by
  simp only [magnitude, toNat_toBits_ofMagnitude, encode, signBit, infinityBits]
  split <;> omega

theorem isNegative_ofMagnitude (negative : Bool) (bits : Nat) :
    isNegative (ofMagnitude negative bits) = negative := by
  simp only [isNegative, toNat_toBits_ofMagnitude, encode, signBit, infinityBits]
  cases negative
  · exact decide_eq_false (by simp only [Bool.false_eq_true, if_false]; omega)
  · exact decide_eq_true (by simp only [if_true]; omega)

/-- A double is its sign and its magnitude, unless it is not a number. -/
theorem ofMagnitude_magnitude {x : Float} (h : magnitude x ≤ infinityBits) :
    ofMagnitude (isNegative x) (magnitude x) = x := by
  have hlt := x.toBits.toNat_lt
  have hbits : (ofMagnitude (isNegative x) (magnitude x)).toBits = x.toBits := by
    apply UInt64.toNat_inj.1
    rw [toNat_toBits_ofMagnitude]
    simp only [encode, isNegative, Nat.min_eq_left h]
    simp only [magnitude, signBit]
    by_cases hs : 0x8000000000000000 ≤ x.toBits.toNat
    · simp only [hs, decide_true, if_true]
      omega
    · simp only [hs, decide_false, Bool.false_eq_true, if_false]
      omega
  obtain ⟨bits, valid⟩ := x
  exact congrArg Float.ofModel (Float.Model.mk.injEq .. ▸ hbits)

/-- Zero. -/
def zero : Float := ofMagnitude false 0

/-- Infinity with a sign. -/
def infinity (negative : Bool) : Float := ofMagnitude negative infinityBits

/-- Zero without a sign; every other double is left as it is. -/
def unsignedZero (x : Float) : Float := if magnitude x = 0 then zero else x

/-! ## Order -/

/-- Comparing the other way round reverses the answer. -/
theorem compare?_swap (x y : Float) : compare? y x = (compare? x y).map Ordering.swap := by
  simp only [compare?]
  cases rank? x with
  | none => cases rank? y <;> rfl
  | some a =>
    cases rank? y with
    | none => rfl
    | some b => exact congrArg some Std.OrientedOrd.eq_swap

end Reporting.Double
