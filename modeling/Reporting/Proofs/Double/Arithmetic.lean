import Reporting.Proofs.Double.Rank

/-!
# Proofs/Double/Arithmetic — where sums and quotients are real numbers

Doubles are added and divided by their parts, a significand and an exponent, and what comes of these is
rounded and packed again.  It is a real number exactly if its exponent is none beyond those of doubles
(`isFinite_pack_iff`).  So nothing leads back from infinity: a sum is real only if both of its sides are
(`isFinite_of_add`), and a quotient only if what is divided is (`isFinite_of_div`).

Rounding may carry into the exponent, but a quotient by two or more has room for that
(`isReal_div_of_two_le`), and a quotient by one needs no rounding (`isReal_div_one`).  So a real number
that is divided by a number of things stays one (`isFinite_div_ofNat`).
-/

namespace Reporting.Double

open Float.Model (UnpackedFloat Format totalExponent)
open Float.Model.UnpackedFloat

-- Powers are those of natural numbers, whatever else has powers.
attribute [local instance (high)] instPowNat

variable {x y : Float} {sign : Sign} {m n : Nat} {e f : Int}

/-! ## Taking apart -/

theorem toNat_unpackExponent (x : Float) :
    (@unpackExponent .binary64 x.toBits.toBitVec).toNat = magnitude x / binade := by
  have hlt := x.toBits.toNat_lt
  have hbits : (@unpackExponent .binary64 x.toBits.toBitVec).toNat =
      x.toBits.toNat / 2 ^ 52 % 2 ^ 11 := by
    simp [unpackExponent, BitVec.extractLsb, Nat.shiftRight_eq_div_pow]
  rw [hbits]
  simp only [magnitude, signBit, binade]
  omega

theorem toNat_unpackMantissa (x : Float) :
    (@unpackMantissa .binary64 x.toBits.toBitVec).toNat = magnitude x % binade := by
  have hlt := x.toBits.toNat_lt
  have hbits : (@unpackMantissa .binary64 x.toBits.toBitVec).toNat = x.toBits.toNat % 2 ^ 52 := by
    simp [unpackMantissa, BitVec.extractLsb]
  rw [hbits]
  simp only [magnitude, signBit, binade]
  omega

/-- A double is real unless all bits of its exponent are set. -/
theorem isFinite_iff_unpackExponent (x : Float) :
    isFinite x ↔ @unpackExponent .binary64 x.toBits.toBitVec ≠ -1#11 := by
  have hlt : magnitude x < signBit := Nat.mod_lt _ (by decide)
  have hones : (-1#11).toNat = 2047 := rfl
  rw [isFinite, decide_eq_true_iff, Ne, ← BitVec.toNat_inj, toNat_unpackExponent]
  simp only [infinityBits, binade, signBit] at hlt ⊢
  rw [hones]
  omega

/-- **A double is real exactly if its parts are.** -/
theorem isFinite_iff_unpack (x : Float) : isFinite x ↔ x.toModel.unpack.isFinite := by
  rw [isFinite_iff_unpackExponent]
  change _ ↔ (UnpackedFloat.unpack .binary64 x.toBits.toBitVec).isFinite = true
  delta UnpackedFloat.unpack
  dsimp only
  by_cases hexp : @unpackExponent .binary64 x.toBits.toBitVec = -1#11
  · refine iff_of_false (absurd hexp) ?_
    rw [if_pos hexp]
    by_cases hmant : @unpackMantissa .binary64 x.toBits.toBitVec = 0#52
    · rw [if_pos hmant]
      exact Bool.false_ne_true
    · rw [if_neg hmant]
      exact Bool.false_ne_true
  · refine iff_of_true hexp ?_
    rw [if_neg hexp]
    by_cases hzero : @unpackExponent .binary64 x.toBits.toBitVec = 0#11
    · rw [if_pos hzero]
      by_cases hmant : @unpackMantissa .binary64 x.toBits.toBitVec = 0#52
      · rw [dif_pos hmant]
        rfl
      · rw [dif_neg hmant]
        rfl
    · rw [if_neg hzero]
      rfl

theorem finite_congr {pos : 0 < m} {pos' : 0 < n} (hm : m = n) (he : e = f) :
    UnpackedFloat.finite sign m e pos = .finite sign n f pos' := by
  subst hm he
  rfl

/-- The parts of a double below the first power of two with all digits of a significand. -/
theorem unpack_of_lt (h : magnitude x < binade) :
    (∃ sign, x.toModel.unpack = .zero sign) ∨
      ∃ sign pos, x.toModel.unpack = .finite sign (magnitude x) (-1074) pos := by
  have hexp : @unpackExponent .binary64 x.toBits.toBitVec = 0#11 := by
    apply BitVec.eq_of_toNat_eq
    rw [toNat_unpackExponent, Nat.div_eq_of_lt h]
    rfl
  have hmant : (@unpackMantissa .binary64 x.toBits.toBitVec).toNat = magnitude x := by
    rw [toNat_unpackMantissa, Nat.mod_eq_of_lt h]
  change (∃ sign, UnpackedFloat.unpack .binary64 x.toBits.toBitVec = .zero sign) ∨ ∃ sign pos,
    UnpackedFloat.unpack .binary64 x.toBits.toBitVec = .finite sign (magnitude x) (-1074) pos
  delta UnpackedFloat.unpack
  dsimp only
  rw [hexp, if_neg (by decide), if_pos rfl]
  by_cases hzero : @unpackMantissa .binary64 x.toBits.toBitVec = 0#52
  · rw [dif_pos hzero]
    exact .inl ⟨_, rfl⟩
  · rw [dif_neg hzero]
    have hpos : 0 < magnitude x :=
      Nat.pos_of_ne_zero fun h => hzero (BitVec.eq_of_toNat_eq (hmant.trans h))
    exact .inr ⟨Sign.ofBitVec (@unpackSign .binary64 x.toBits.toBitVec), hpos, finite_congr hmant rfl⟩

/-- The parts of any other real double. -/
theorem unpack_of_le (hfinite : isFinite x) (h : binade ≤ magnitude x) :
    ∃ sign pos, x.toModel.unpack =
      .finite sign (binade + magnitude x % binade) ((magnitude x / binade : Nat) - 1075) pos := by
  have hexp : @unpackExponent .binary64 x.toBits.toBitVec ≠ 0#11 := by
    intro hzero
    have hdiv := congrArg BitVec.toNat hzero
    rw [toNat_unpackExponent] at hdiv
    exact absurd hdiv (Nat.ne_of_gt (Nat.div_pos h (by decide)))
  have hmant : (1#1 ++ @unpackMantissa .binary64 x.toBits.toBitVec).toNat =
      binade + magnitude x % binade := by
    rw [BitVec.toNat_append, toNat_unpackMantissa]
    exact (Nat.two_pow_add_eq_or_of_lt (i := 52) (Nat.mod_lt _ (by decide)) 1).symm
  have hpos : 0 < binade + magnitude x % binade := Nat.add_pos_left (by decide) _
  change ∃ sign pos, UnpackedFloat.unpack .binary64 x.toBits.toBitVec =
    .finite sign (binade + magnitude x % binade) ((magnitude x / binade : Nat) - 1075) pos
  delta UnpackedFloat.unpack
  dsimp only
  rw [if_neg ((isFinite_iff_unpackExponent x).1 hfinite), if_neg hexp]
  refine ⟨Sign.ofBitVec (@unpackSign .binary64 x.toBits.toBitVec), hpos, finite_congr hmant ?_⟩
  rw [toNat_unpackExponent]
  rfl

/-- **What the parts of a real number can be.** -/
theorem unpack_of_isFinite (h : isFinite x) : (∃ sign, x.toModel.unpack = .zero sign) ∨
    ∃ sign m e pos, x.toModel.unpack = .finite sign m e pos ∧ m < 2 ^ (53 : Nat) ∧
      -1074 ≤ e ∧ e ≤ 971 := by
  have hlt := magnitude_lt_of_isFinite h
  rcases Nat.lt_or_ge (magnitude x) binade with hsmall | hnormal
  · refine (unpack_of_lt hsmall).imp_right fun ⟨sign, pos, heq⟩ =>
      ⟨sign, _, _, pos, heq, Nat.lt_trans hsmall (by decide), by decide, by decide⟩
  · obtain ⟨sign, pos, heq⟩ := unpack_of_le h hnormal
    refine .inr ⟨sign, _, _, pos, heq, ?_, ?_, ?_⟩
    all_goals simp only [infinityBits, binade] at hlt hnormal ⊢
    all_goals omega

/-! ## Packing -/

/-- Whether parts are packed into a real number: their exponent is none beyond those of doubles. -/
def IsReal : UnpackedFloat → Prop
  | .zero _ => True
  | .finite _ _ exponent _ => exponent ≤ 971
  | _ => False

/-- **Where packing gives a real number.** -/
theorem isFinite_pack_iff (f : UnpackedFloat) : isFinite (.ofModel (.pack f)) ↔ IsReal f := by
  rw [isFinite_iff_unpackExponent]
  change @unpackExponent .binary64 (UnpackedFloat.pack .binary64 f) ≠ -1#11 ↔ _
  cases f with
  | notANumber =>
    change unpackExponent (packComponents .binary64 .positive (-1#11) _) ≠ -1#11 ↔ _
    rw [unpackExponent_packComponents]
    exact iff_of_false (absurd rfl) id
  | infinity sign =>
    change unpackExponent (packedInfinity .binary64 sign) ≠ -1#11 ↔ _
    rw [packedInfinity, unpackExponent_packComponents]
    exact iff_of_false (absurd rfl) id
  | zero sign =>
    change unpackExponent (packedZero .binary64 sign) ≠ -1#11 ↔ _
    rw [packedZero, unpackExponent_packComponents]
    exact iff_of_true (by decide) trivial
  | finite sign m e pos =>
    have hbias : e + (Format.exponentBias .binary64 : Int) + (52 : Nat) = e + 1075 := by
      rw [Int.add_assoc]
      rfl
    delta UnpackedFloat.pack
    dsimp only
    rw [hbias]
    by_cases hlarge : 2 ^ 11 ≤ (e + 1075).toNat + 1
    · have hgt : ¬ e ≤ 971 := by omega
      rw [if_pos hlarge, packedInfinity, unpackExponent_packComponents]
      exact iff_of_false (absurd rfl) hgt
    · have hle : e ≤ 971 := by omega
      refine iff_of_true ?_ hle
      rw [if_neg hlarge]
      by_cases hdigits : m.log2 + 1 = Format.mantissaBits .binary64
      · rw [if_pos hdigits, unpackExponent_packComponents]
        intro hones
        have hexp := congrArg BitVec.toNat hones
        simp only [BitVec.toNat_ofNat, BitVec.reduceNeg] at hexp
        omega
      · rw [if_neg hdigits, unpackExponent_packComponents]
        decide

theorem isFinite_add_iff (x y : Float) :
    isFinite (x + y) ↔ IsReal (UnpackedFloat.add .binary64 x.toModel.unpack y.toModel.unpack) :=
  isFinite_pack_iff _

theorem isFinite_div_iff (x y : Float) :
    isFinite (x / y) ↔ IsReal (UnpackedFloat.div .binary64 x.toModel.unpack y.toModel.unpack) :=
  isFinite_pack_iff _

/-- **A sum that is real is one to a real number.** -/
theorem isFinite_of_add (h : isFinite (x + y)) : isFinite x := by
  rw [isFinite_add_iff] at h
  rw [isFinite_iff_unpack]
  cases hx : x.toModel.unpack with
  | zero sign => rfl
  | finite sign m e pos => rfl
  | notANumber =>
    rw [hx] at h
    cases y.toModel.unpack <;> cases h
  | infinity sign =>
    rw [hx] at h
    cases hy : y.toModel.unpack with
    | infinity sign' =>
      -- Infinities of both signs come to what is not a number.
      rw [hy] at h
      cases sign <;> cases sign' <;> cases h
    | _ =>
      rw [hy] at h
      cases h

/-- **A quotient that is real is one of a real number.** -/
theorem isFinite_of_div (h : isFinite (x / y)) : isFinite x := by
  rw [isFinite_div_iff] at h
  rw [isFinite_iff_unpack]
  cases hx : x.toModel.unpack with
  | zero sign => rfl
  | finite sign m e pos => rfl
  | notANumber =>
    rw [hx] at h
    cases y.toModel.unpack <;> cases h
  | infinity sign =>
    rw [hx] at h
    cases hy : y.toModel.unpack <;> rw [hy] at h <;> cases h

/-! ## Rounding -/

theorem log2_le_of_lt {k : Nat} (h : n < 2 ^ (k + 1)) : n.log2 ≤ k := by
  by_cases hn : n = 0
  · rw [hn, Nat.log2_zero]
    exact Nat.zero_le k
  · exact Nat.le_of_lt_succ ((Nat.log2_lt hn).2 h)

theorem mantissa_ofMantissaAndAccuracy (m : Nat) (accuracy : Accuracy) :
    (ExtendedMantissa.ofMantissaAndAccuracy m accuracy).mantissa = m := by
  rcases accuracy with _ | ⟨_ | _ | _⟩ <;> rfl

theorem mantissa_shiftRight (m : ExtendedMantissa) (k : Nat) :
    (m >>> k).mantissa = m.mantissa / 2 ^ k := by
  induction k with
  | zero => exact (Nat.div_one _).symm
  | succ k ih =>
    change (m >>> k).mantissa / 2 = _
    rw [ih, Nat.div_div_eq_div_mul, Nat.pow_succ]

theorem roundedMantissa_le (m : ExtendedMantissa) : m.roundedMantissa ≤ m.mantissa + 1 := by
  obtain ⟨m, round, sticky⟩ := m
  cases round <;> cases sticky
  · exact Nat.le_succ m
  · exact Nat.le_succ m
  · exact Nat.add_le_add_left (Nat.le_of_lt_succ (Nat.mod_lt m Nat.two_pos)) m
  · exact Nat.le_refl _

/-- Cutting off binary digits that are zeros leaves nothing to round. -/
theorem roundedMantissa_shiftRight {k : Nat} (h : 2 ^ k ∣ m) :
    (ExtendedMantissa.ofMantissaAndAccuracy m .exact >>> k).roundedMantissa = m / 2 ^ k := by
  have hexact : ExtendedMantissa.ofMantissaAndAccuracy m .exact >>> k =
      ⟨m / 2 ^ k, false, false⟩ := by
    induction k with
    | zero =>
      rw [Nat.pow_zero, Nat.div_one]
      rfl
    | succ k ih =>
      obtain ⟨n, rfl⟩ := h
      rw [Nat.pow_succ, Nat.mul_assoc] at ih ⊢
      change ((ExtendedMantissa.ofMantissaAndAccuracy _ .exact) >>> k).shiftRightOne = _
      rw [ih (Nat.dvd_mul_right _ _), Nat.mul_div_cancel_left _ (Nat.two_pow_pos k),
        ← Nat.div_div_eq_div_mul, Nat.mul_div_cancel_left _ (Nat.two_pow_pos k)]
      simp [ExtendedMantissa.shiftRightOne]
  rw [hexact]
  rfl

/-- How many binary digits are cut off a significand. -/
def cutOff (m : Nat) (e : Int) : Nat := (max (totalExponent m e - 53) (-1074) - e).toNat

theorem shiftToTargetExponent_eq (m : Nat) (e : Int) (accuracy : Accuracy) :
    shiftToTargetExponent .binary64 m e accuracy =
      (ExtendedMantissa.ofMantissaAndAccuracy m accuracy >>> cutOff m e, e + cutOff m e) := rfl

/-- The exponent of what is left. -/
theorem add_cutOff_le {bound : Int} (he : e ≤ bound) (htotal : totalExponent m e ≤ bound + 53)
    (hbound : -1074 ≤ bound) : e + cutOff m e ≤ bound := by
  rw [cutOff]
  omega

/-- What is left has as many digits as a significand, at most. -/
theorem div_cutOff_lt (m : Nat) (e : Int) : m / 2 ^ cutOff m e < 2 ^ (53 : Nat) := by
  have hlog : m.log2 + 1 ≤ 53 + cutOff m e := by
    simp only [cutOff, totalExponent]
    omega
  rw [Nat.div_lt_iff_lt_mul (Nat.two_pow_pos _), ← Nat.pow_add]
  exact Nat.lt_of_lt_of_le Nat.lt_log2_self (Nat.pow_le_pow_right (by decide) hlog)

theorem isReal_of_exponent_le (m : Nat) (he : e ≤ 971) :
    IsReal (if h : m = 0 then .zero sign else .finite sign m e (Nat.pos_of_ne_zero h)) := by
  by_cases h : m = 0
  · rw [dif_pos h]
    trivial
  · rw [dif_neg h]
    exact he

/-- A significand that has been rounded once is put into shape again, which may raise the exponent. -/
theorem isReal_of_roundedMantissa {accuracy : Accuracy} (he : e + cutOff m e ≤ 971)
    (htotal : totalExponent (ExtendedMantissa.ofMantissaAndAccuracy m accuracy >>>
      cutOff m e).roundedMantissa (e + cutOff m e) ≤ 1024) :
    IsReal (roundWithAccuracy .binary64 sign m e accuracy) := by
  rw [roundWithAccuracy, shiftToTargetExponent_eq]
  exact isReal_of_exponent_le _ (add_cutOff_le he htotal (by decide))

/-- **Rounding gives a real number where there is room for a carry.** -/
theorem isReal_roundWithAccuracy_of_le {accuracy : Accuracy} (he : e ≤ 970)
    (htotal : totalExponent m e ≤ 1023) :
    IsReal (roundWithAccuracy .binary64 sign m e accuracy) := by
  have hcut := add_cutOff_le he htotal (by decide)
  have hlt : (ExtendedMantissa.ofMantissaAndAccuracy m accuracy >>>
      cutOff m e).roundedMantissa < 2 ^ (53 + 1) := by
    refine Nat.lt_of_le_of_lt (roundedMantissa_le _) ?_
    rw [mantissa_shiftRight, mantissa_ofMantissaAndAccuracy]
    exact Nat.lt_of_le_of_lt (div_cutOff_lt m e) (by decide)
  have hlog := log2_le_of_lt hlt
  refine isReal_of_roundedMantissa (by omega) ?_
  rw [totalExponent]
  omega

/-- **Rounding gives a real number where there is nothing to round.** -/
theorem isReal_roundWithAccuracy_of_dvd (he : e ≤ 971) (htotal : totalExponent m e ≤ 1024)
    (hdvd : 2 ^ cutOff m e ∣ m) : IsReal (roundWithAccuracy .binary64 sign m e .exact) := by
  have hcut := add_cutOff_le he htotal (by decide)
  have hlog := log2_le_of_lt (div_cutOff_lt m e)
  refine isReal_of_roundedMantissa hcut ?_
  rw [roundedMantissa_shiftRight hdvd, totalExponent]
  omega

/-! ## Dividing -/

/-- The exponent of the significand that a quotient is rounded from. -/
def quotientExponent (m : Nat) (e : Int) (n : Nat) (f : Int) : Int :=
  min (e - f) (max (totalExponent m e - totalExponent n f - 53) (-1074))

/-- How far a significand is moved to the left before it is divided. -/
def quotientShift (m : Nat) (e : Int) (n : Nat) (f : Int) : Nat :=
  (e - f - quotientExponent m e n f).toNat

theorem quotientShift_eq (m : Nat) (e : Int) (n : Nat) (f : Int) :
    (quotientShift m e n f : Int) = e - f - quotientExponent m e n f := by
  rw [quotientShift, quotientExponent]
  omega

theorem div_finite_eq {sign' : Sign} (hm : 0 < m) (hn : 0 < n) :
    UnpackedFloat.div .binary64 (.finite sign m e hm) (.finite sign' n f hn) =
      roundWithAccuracy .binary64 (sign / sign') (m * 2 ^ quotientShift m e n f / n)
        (quotientExponent m e n f) (accuracyOfFraction (m * 2 ^ quotientShift m e n f % n) n) := by
  rw [← Nat.shiftLeft_eq]
  rfl

theorem log2_mul_two_pow (hm : 0 < m) (k : Nat) : (m * 2 ^ k).log2 = m.log2 + k := by
  have hlow := Nat.mul_le_mul_right (2 ^ k) (Nat.log2_self_le (Nat.ne_of_gt hm))
  have hhigh := Nat.mul_lt_mul_of_pos_right (@Nat.lt_log2_self m) (Nat.two_pow_pos k)
  rw [← Nat.pow_add] at hlow hhigh
  rw [Nat.log2_eq_iff (Nat.ne_of_gt (Nat.mul_pos hm (Nat.two_pow_pos k)))]
  exact ⟨hlow, by rwa [Nat.add_right_comm]⟩

/-- The binary digits of a quotient and of what it is divided by come to no more than those of what is
divided. -/
theorem log2_div_add_log2_le (hn : 0 < n) (h : m / n ≠ 0) : (m / n).log2 + n.log2 ≤ m.log2 := by
  have hlt : 2 ^ ((m / n).log2 + n.log2) < 2 ^ (m.log2 + 1) :=
    calc 2 ^ ((m / n).log2 + n.log2)
        = 2 ^ (m / n).log2 * 2 ^ n.log2 := Nat.pow_add ..
      _ ≤ m / n * n := Nat.mul_le_mul (Nat.log2_self_le h) (Nat.log2_self_le (Nat.ne_of_gt hn))
      _ ≤ m := Nat.div_mul_le_self m n
      _ < 2 ^ (m.log2 + 1) := Nat.lt_log2_self
  exact Nat.le_of_lt_succ ((Nat.pow_lt_pow_iff_right (by decide)).1 hlt)

/-- **A quotient by two or more is real.** -/
theorem isReal_div_of_two_le {sign' : Sign} (hm : 0 < m) (hn : 0 < n)
    (hmax : totalExponent m e ≤ 1024) (htwo : 2 ≤ totalExponent n f) :
    IsReal (UnpackedFloat.div .binary64 (.finite sign m e hm) (.finite sign' n f hn)) := by
  have hexp : quotientExponent m e n f ≤ 969 := by
    rw [quotientExponent]
    omega
  have hshift := quotientShift_eq m e n f
  rw [div_finite_eq]
  refine isReal_roundWithAccuracy_of_le (by omega) ?_
  by_cases hzero : m * 2 ^ quotientShift m e n f / n = 0
  · rw [hzero, totalExponent, Nat.log2_zero]
    omega
  · have hlog := log2_div_add_log2_le hn hzero
    rw [log2_mul_two_pow hm] at hlog
    simp only [totalExponent] at hmax htwo ⊢
    omega

/-- **A quotient by one is real**, as it is what is divided. -/
theorem isReal_div_one {sign' : Sign} (hm : 0 < m) (hlt : m < 2 ^ (53 : Nat)) (hmin : -1074 ≤ e)
    (hmax : e ≤ 971) : IsReal (UnpackedFloat.div .binary64 (.finite sign m e hm)
      (.finite sign' (2 ^ (52 : Nat)) (-52) (Nat.two_pow_pos 52))) := by
  have hlog := log2_le_of_lt hlt
  have hone : totalExponent (2 ^ 52) (-52) = 1 := by
    rw [totalExponent, Nat.log2_two_pow]
    rfl
  have hexp : quotientExponent m e (2 ^ 52) (-52) = max (totalExponent m e - 54) (-1074) := by
    rw [quotientExponent, hone, totalExponent]
    omega
  obtain ⟨k, hk⟩ : ∃ k : Nat, quotientShift m e (2 ^ 52) (-52) = k + 52 := by
    refine ⟨(e - quotientExponent m e (2 ^ 52) (-52)).toNat, ?_⟩
    rw [quotientShift, hexp, totalExponent]
    omega
  have hshift := quotientShift_eq m e (2 ^ 52) (-52)
  have hmul : m * 2 ^ (k + 52) = m * 2 ^ k * 2 ^ 52 := by rw [Nat.pow_add, Nat.mul_assoc]
  have htotal : totalExponent (m * 2 ^ k) (quotientExponent m e (2 ^ 52) (-52)) =
      totalExponent m e := by
    rw [totalExponent, totalExponent, log2_mul_two_pow hm]
    omega
  rw [div_finite_eq, hk, hmul, Nat.mul_div_cancel _ (Nat.two_pow_pos 52), Nat.mul_mod_left]
  refine isReal_roundWithAccuracy_of_dvd (by omega) ?_ ?_
  · rw [htotal, totalExponent]
    omega
  · refine Nat.dvd_mul_left_of_dvd (Nat.pow_dvd_pow 2 ?_) m
    rw [cutOff, htotal, totalExponent]
    omega

/-! ## Dividing by a number of things -/

theorem ofMagnitude_of_le {negative : Bool} {bits : Nat} (h : infinityBits ≤ bits) :
    ofMagnitude negative bits = infinity negative := by
  have hmagnitude : magnitude (ofMagnitude negative bits) = infinityBits := by
    rw [magnitude_ofMagnitude, Nat.min_eq_right h]
  rw [← ofMagnitude_magnitude (Nat.le_of_eq hmagnitude), hmagnitude, isNegative_ofMagnitude, infinity]

theorem unitPlaces_eq : unitPlaces = 1074 := by
  unfold unitPlaces
  rfl

theorem units_of_lt {bits : Nat} (h : bits < 2 * binade) : units bits = bits := if_pos h

/-- The units of a double with all digits of a significand. -/
theorem units_mul_add {shift rest : Nat} (h : rest < binade) :
    units ((shift + 1) * binade + rest) = (binade + rest) * 2 ^ shift := by
  cases shift with
  | zero => rw [units_of_lt (by omega), Nat.zero_add, Nat.one_mul, Nat.pow_zero, Nat.mul_one]
  | succ shift =>
    have hle : 2 * binade ≤ (shift + 1 + 1) * binade := Nat.mul_le_mul_right _ (by omega)
    have hdiv : ((shift + 1 + 1) * binade + rest) / binade = shift + 1 + 1 := by
      rw [Nat.mul_comm, Nat.mul_add_div (by decide), Nat.div_eq_of_lt h, Nat.add_zero]
    rw [units, if_neg (by omega), Nat.mul_add_mod_self_right, Nat.mod_eq_of_lt h, hdiv,
      Nat.add_sub_cancel]

/-- The units of a power of two. -/
theorem units_mul_binade (shift : Nat) :
    units ((shift + 1) * binade) = 2 ^ (fractionBits + shift) := by
  have hunits : units ((shift + 1) * binade + 0) = (binade + 0) * 2 ^ shift :=
    units_mul_add (by decide)
  simp only [Nat.add_zero] at hunits
  rw [hunits, Nat.pow_add, ← binade_eq]

theorem units_one : units (1023 * binade) = oneInUnits := by
  have hplaces : fractionBits + 1022 = unitPlaces := unitPlaces_eq.symm
  rw [oneInUnits, ← hplaces]
  exact units_mul_binade 1022

theorem unpack_ofNat_one :
    (ofNat 1).toModel.unpack = .finite .positive (2 ^ (52 : Nat)) (-52) (Nat.two_pow_pos 52) := by
  have hone : ofNat 1 = ofMagnitude false (1023 * binade) := by
    rw [ofNat, Nat.one_mul, ← units_one, ← Nat.mul_one (units _), nearest_units _ Nat.one_pos]
  rw [hone]
  rfl

/-- The double nearest to two or more is infinity, or two at least. -/
theorem unpack_ofNat_of_two_le (h : 2 ≤ n) : (ofNat n).toModel.unpack = .infinity .positive ∨
    ∃ sign m e pos, (ofNat n).toModel.unpack = .finite sign m e pos ∧ 2 ≤ totalExponent m e := by
  have hle : 1024 * binade ≤ nearest (n * oneInUnits) 1 := by
    refine @le_nearest _ 1 1023 Nat.one_pos ?_
    have htwo : 2 ^ (fractionBits + 1023) * 1 = 2 * oneInUnits := by
      rw [Nat.mul_one, oneInUnits, ← Nat.pow_succ']
      exact congrArg (2 ^ ·) (congrArg Nat.succ unitPlaces_eq.symm)
    rw [htwo]
    exact Nat.mul_le_mul_right _ h
  rcases Nat.lt_or_ge (nearest (n * oneInUnits) 1) infinityBits with hlt | hge
  · have hmagnitude : magnitude (ofNat n) = nearest (n * oneInUnits) 1 := by
      rw [ofNat, magnitude_ofMagnitude, Nat.min_eq_left (Nat.le_of_lt hlt)]
    rw [← hmagnitude] at hle hlt
    obtain ⟨sign, pos, heq⟩ := unpack_of_le (decide_eq_true hlt) (Nat.le_trans (by decide) hle)
    refine .inr ⟨sign, _, _, pos, heq, ?_⟩
    have hlog : 52 ≤ (binade + magnitude (ofNat n) % binade).log2 :=
      (Nat.le_log2 (Nat.ne_of_gt pos)).2 (Nat.le_add_right _ _)
    simp only [totalExponent, binade] at hlog hle ⊢
    omega
  · rw [ofNat, ofMagnitude_of_le hge]
    exact .inl rfl

/-- **A real number that is divided by a number of things stays real.** -/
theorem isFinite_div_ofNat (h : isFinite x) (hn : 0 < n) : isFinite (x / ofNat n) := by
  rw [isFinite_div_iff]
  rcases Nat.lt_or_ge 1 n with htwo | hone
  · rcases unpack_ofNat_of_two_le htwo with hy | ⟨_, _, _, _, hy, htotal⟩
    · rcases unpack_of_isFinite h with ⟨_, hx⟩ | ⟨_, _, _, _, hx, -⟩ <;> rw [hx, hy] <;> trivial
    · rcases unpack_of_isFinite h with ⟨_, hx⟩ | ⟨_, m, e, _, hx, hm, -, hmax⟩ <;> rw [hx, hy]
      · trivial
      · have hlog := log2_le_of_lt hm
        refine isReal_div_of_two_le _ _ ?_ htotal
        rw [totalExponent]
        omega
  · obtain rfl : n = 1 := by omega
    rcases unpack_of_isFinite h with ⟨_, hx⟩ | ⟨_, m, e, hpos, hx, hm, hmin, hmax⟩ <;>
      rw [hx, unpack_ofNat_one]
    · trivial
    · exact isReal_div_one hpos hm hmin hmax

end Reporting.Double
