import Mathlib.Order.Monotone.Basic
import Reporting.Proofs.Double.Arithmetic

/-!
# Proofs/Double/Nearest — no double is nearer to an integer than the one it is read as

Magnitudes number the doubles that are not negative, and the units of a double rise with its number
(`units_strictMono`): by equal steps from one power of two to the next (`units_add`).  Rounding looks for
the two neighbours that a number lies between and takes the nearer one (`nearest_between`), so every
other double is at least as far away (`natAbs_exact_ofInt_sub_le`).  An integer that some double is
stays what it is, then (`exact_ofInt_of_isExact`), and up to `2 ^ 53` every integer is one
(`isExact_of_natAbs_le`), so as doubles these integers have their own order (`compare?_ofInt`).
-/

namespace Reporting.Double

-- Powers are those of natural numbers, whatever else has powers.
attribute [local instance (high)] instPowNat

/-! ## Steps -/

variable {shift significand numerator : Nat}

/-- **The units of a significand that is shifted**, up to the next power of two. -/
theorem units_add (hlow : shift = 0 ∨ binade ≤ significand) (hhigh : significand ≤ 2 * binade) :
    units (shift * binade + significand) = significand * 2 ^ shift := by
  rcases Nat.lt_or_ge significand binade with hsmall | hnormal
  · obtain rfl := hlow.resolve_right (Nat.not_le.2 hsmall)
    rw [units_of_lt (by omega), Nat.zero_mul, Nat.zero_add, Nat.pow_zero, Nat.mul_one]
  · obtain ⟨rest, rfl⟩ := Nat.exists_eq_add_of_le hnormal
    rcases Nat.lt_or_ge rest binade with hrest | hcarry
    · rw [← Nat.add_assoc, ← Nat.succ_mul, units_mul_add hrest]
    · obtain rfl : rest = binade := by omega
      rw [← Nat.add_assoc, ← Nat.succ_mul, ← Nat.succ_mul, units_mul_binade, ← Nat.mul_two,
        Nat.pow_add, Nat.pow_succ', ← binade_eq, Nat.mul_assoc]

/-- Every magnitude is a significand that is shifted. -/
theorem exists_eq_mul_add (bits : Nat) : ∃ shift significand, bits = shift * binade + significand ∧
    (shift = 0 ∨ binade ≤ significand) ∧ significand < 2 * binade := by
  rcases Nat.lt_or_ge bits binade with hsmall | hnormal
  · exact ⟨0, bits, by omega, .inl rfl, by omega⟩
  · have hdiv : 0 < bits / binade := Nat.div_pos hnormal (by decide)
    have hmod : bits % binade < binade := Nat.mod_lt _ (by decide)
    refine ⟨bits / binade - 1, binade + bits % binade, ?_, .inr (Nat.le_add_right _ _), by omega⟩
    have hsucc : bits / binade - 1 + 1 = bits / binade := Nat.sub_add_cancel hdiv
    rw [← Nat.add_assoc, ← Nat.succ_mul, Nat.succ_eq_add_one, hsucc, Nat.div_add_mod']

/-- **Units rise with the magnitude.** -/
theorem units_strictMono : StrictMono units := by
  refine strictMono_nat_of_lt_succ fun bits => ?_
  obtain ⟨shift, significand, rfl, hlow, hhigh⟩ := exists_eq_mul_add bits
  rw [Nat.add_assoc, units_add hlow (by omega), units_add (hlow.imp_right (by omega)) (by omega)]
  exact Nat.mul_lt_mul_of_pos_right (Nat.lt_succ_self _) (Nat.two_pow_pos shift)

/-! ## Neighbours -/

/-- **A number lies between two neighbours, and rounding takes the nearer one.** -/
theorem nearest_between (numerator : Nat) : ∃ low, units low ≤ numerator ∧
    numerator < units (low + 1) ∧
      (nearest numerator 1 = low ∧ 2 * numerator ≤ units low + units (low + 1) ∨
        nearest numerator 1 = low + 1 ∧ units low + units (low + 1) ≤ 2 * numerator) := by
  obtain ⟨shift, hshift⟩ : ∃ shift, numerator.log2 - fractionBits = shift := ⟨_, rfl⟩
  have hpow := Nat.two_pow_pos shift
  have hlow : shift = 0 ∨ binade ≤ numerator / 2 ^ shift := by
    refine Nat.eq_zero_or_pos shift |>.imp_right fun hpos => ?_
    have hne : numerator ≠ 0 := by
      rintro rfl
      rw [Nat.log2_zero] at hshift
      omega
    rw [Nat.le_div_iff_mul_le hpow, binade_eq, ← Nat.pow_add, ← Nat.le_log2 hne]
    omega
  have hhigh : numerator / 2 ^ shift < 2 * binade := by
    rw [two_mul_binade, Nat.div_lt_iff_lt_mul hpow, ← Nat.pow_add]
    exact Nat.lt_of_lt_of_le Nat.lt_log2_self (Nat.pow_le_pow_right (by decide) (by omega))
  have hunits := units_add hlow (Nat.le_of_lt hhigh)
  have hnext : units (shift * binade + numerator / 2 ^ shift + 1) =
      (numerator / 2 ^ shift + 1) * 2 ^ shift := by
    rw [Nat.add_assoc, units_add (hlow.imp_right Nat.le_succ_of_le) hhigh]
  refine ⟨shift * binade + numerator / 2 ^ shift, ?_⟩
  simp only [nearest, Nat.div_one, hshift, Nat.one_mul, hunits, hnext]
  -- From here on it is one division with a remainder.
  obtain ⟨low, hquot⟩ : ∃ low, numerator / 2 ^ shift = low := ⟨_, rfl⟩
  have hdiv := Nat.div_add_mod' numerator (2 ^ shift)
  have hmod := Nat.mod_lt numerator hpow
  rw [hquot] at hdiv ⊢
  rw [Nat.succ_mul]
  refine ⟨by omega, by omega, ?_⟩
  split
  · exact .inl ⟨Nat.add_zero _, by omega⟩
  · exact .inr ⟨Eq.refl _, by omega⟩

/-- **No magnitude is nearer to a number than the one that it is rounded to.** -/
theorem natAbs_units_nearest_sub_le (numerator bits : Nat) :
    ((units (nearest numerator 1) : Int) - numerator).natAbs ≤
      ((units bits : Int) - numerator).natAbs := by
  obtain ⟨low, hlow, hhigh, hnearest⟩ := nearest_between numerator
  have hside : units bits ≤ units low ∨ units (low + 1) ≤ units bits := by
    rcases Nat.lt_or_ge low bits with hlt | hle
    · exact .inr (units_strictMono.monotone hlt)
    · exact .inl (units_strictMono.monotone hle)
  rcases hnearest with ⟨heq, hhalf⟩ | ⟨heq, hhalf⟩
  · rw [heq]
    omega
  · rw [heq]
    omega

/-! ## Integers -/

variable {x : Float} {n : Int}

theorem exact_ofMagnitude {negative : Bool} {bits : Nat} (h : bits ≤ infinityBits) :
    exact (ofMagnitude negative bits) = if negative then -(units bits : Int) else units bits := by
  rw [exact, isNegative_ofMagnitude, magnitude_ofMagnitude, Nat.min_eq_left h]

/-- **No double is nearer to an integer than the one that it is read as.** -/
theorem natAbs_exact_ofInt_sub_le (hfinite : isFinite (ofInt n)) (x : Float) :
    (exact (ofInt n) - n * oneInUnits).natAbs ≤ (exact x - n * oneInUnits).natAbs := by
  obtain ⟨numerator, hnumerator⟩ : ∃ numerator, n * (oneInUnits : Int) = numerator := ⟨_, rfl⟩
  have habs : n.natAbs * oneInUnits = numerator.natAbs := by
    rw [← hnumerator, Int.natAbs_mul, Int.natAbs_natCast]
  have hsign : n < 0 ↔ numerator < 0 := by
    rw [← hnumerator, ← Int.not_le, ← Int.not_le,
      Int.mul_nonneg_iff_of_pos_right (Int.natCast_pos.2 oneInUnits_pos)]
  have hle := natAbs_units_nearest_sub_le numerator.natAbs (magnitude x)
  have hbits : nearest numerator.natAbs 1 ≤ infinityBits := by
    have hlt := magnitude_lt_of_isFinite hfinite
    rw [ofInt, magnitude_ofMagnitude, habs] at hlt
    omega
  have hexact : exact x = units (magnitude x) ∨ exact x = -(units (magnitude x) : Int) := by
    rw [exact]
    split
    · exact .inr rfl
    · exact .inl rfl
  rw [ofInt, habs, exact_ofMagnitude hbits, hnumerator]
  simp only [hsign, decide_eq_true_eq]
  split <;> omega

/-- Some double is this number of units. -/
def IsExact (units : Int) : Prop := ∃ x, isFinite x ∧ exact x = units

/-- **An integer that some double is stays what it is.** -/
theorem exact_ofInt_of_isExact (hfinite : isFinite (ofInt n)) (h : IsExact (n * oneInUnits)) :
    exact (ofInt n) = n * oneInUnits := by
  obtain ⟨x, -, hx⟩ := h
  have hle := natAbs_exact_ofInt_sub_le hfinite x
  omega

/-- A significand that is shifted is some double's units. -/
theorem exists_units_eq (h : significand ≤ 2 * binade) :
    ∃ bits ≤ (shift + 2) * binade, units bits = significand * 2 ^ shift := by
  induction shift generalizing significand with
  | zero =>
    have hunits : units (0 * binade + significand) = significand * 2 ^ 0 := units_add (.inl rfl) h
    rw [Nat.zero_mul, Nat.zero_add] at hunits
    exact ⟨significand, by rwa [Nat.zero_add], hunits⟩
  | succ shift ih =>
    rcases Nat.lt_or_ge significand binade with hsmall | hnormal
    · have hdouble : 2 * significand ≤ 2 * binade := by omega
      obtain ⟨bits, hle, hunits⟩ := ih hdouble
      refine ⟨bits, Nat.le_trans hle (Nat.mul_le_mul_right _ (by omega)), ?_⟩
      rw [hunits, Nat.pow_succ', ← Nat.mul_assoc, Nat.mul_comm 2]
    · refine ⟨(shift + 1) * binade + significand, ?_, units_add (.inr hnormal) h⟩
      rw [Nat.add_mul (shift + 1)]
      exact Nat.add_le_add_left h _

/-- **Integers of up to 53 binary digits are doubles.** -/
theorem isExact_of_natAbs_le (h : n.natAbs ≤ 2 ^ (53 : Nat)) : IsExact (n * oneInUnits) := by
  obtain ⟨bits, hle, hunits⟩ : ∃ bits ≤ (unitPlaces + 2) * binade,
      units bits = n.natAbs * oneInUnits := exists_units_eq h
  have hlt : bits < infinityBits := by
    rw [unitPlaces_eq] at hle
    exact Nat.lt_of_le_of_lt hle (by decide)
  have hmagnitude : magnitude (ofMagnitude (n < 0) bits) = bits := by
    rw [magnitude_ofMagnitude, Nat.min_eq_left (Nat.le_of_lt hlt)]
  refine ⟨ofMagnitude (n < 0) bits, decide_eq_true (hmagnitude.symm ▸ hlt), ?_⟩
  rw [exact_ofMagnitude (Nat.le_of_lt hlt), hunits]
  simp only [decide_eq_true_eq]
  split
  · rw [Int.natCast_mul, ← Int.neg_mul, Int.ofNat_natAbs_of_nonpos (by omega), Int.neg_neg]
  · rw [Int.natCast_mul, Int.natAbs_of_nonneg (by omega)]

theorem exact_of_integer? (h : integer? x = some n) : exact x = n * oneInUnits := by
  obtain ⟨hunits, hneg, hpos⟩ := units_of_integer? h
  rw [exact, hunits, Int.natCast_mul]
  split
  · rename_i hsign
    rw [← Int.neg_mul, Int.ofNat_natAbs_of_nonpos (hneg hsign), Int.neg_neg]
  · rename_i hsign
    rw [Int.natAbs_of_nonneg (hpos hsign)]

/-- A double is the integer whose units it has. -/
theorem integer?_of_exact (hfinite : isFinite x) (h : exact x = n * oneInUnits) :
    integer? x = some n := by
  have hunits : units (magnitude x) = n.natAbs * oneInUnits := by
    rw [← Int.natAbs_natCast oneInUnits, ← Int.natAbs_mul, ← h, exact]
    split
    · rw [Int.natAbs_neg, Int.natAbs_natCast]
    · rw [Int.natAbs_natCast]
  rw [integer?, hunits, Nat.mul_mod_left, Nat.mul_div_cancel _ oneInUnits_pos,
    if_pos ⟨hfinite, rfl⟩, Option.some.injEq]
  rw [exact] at h
  split
  · rename_i hsign
    rw [if_pos hsign] at h
    have hle : n ≤ 0 := by
      refine Int.not_lt.1 fun hlt => ?_
      have hpos := Int.mul_pos hlt (Int.natCast_pos.2 oneInUnits_pos)
      omega
    omega
  · rename_i hsign
    rw [if_neg hsign] at h
    have hle : 0 ≤ n :=
      (Int.mul_nonneg_iff_of_pos_right (Int.natCast_pos.2 oneInUnits_pos)).1 (by omega)
    omega

/-- **An integer of up to 53 binary digits is the one that its double is.** -/
theorem integer?_ofInt (h : n.natAbs ≤ 2 ^ (53 : Nat)) : integer? (ofInt n) = some n := by
  have hfinite : isFinite (ofInt n) := isFinite_ofInt (Nat.le_trans h (by decide))
  exact integer?_of_exact hfinite (exact_ofInt_of_isExact hfinite (isExact_of_natAbs_le h))

theorem ofInt_natCast (n : Nat) : ofInt n = ofNat n := by
  have hsign : decide ((n : Int) < 0) = false := decide_eq_false (Int.not_lt.2 (Int.natCast_nonneg n))
  rw [ofInt, ofNat, hsign, Int.natAbs_natCast]

theorem integer?_ofNat {n : Nat} (h : n ≤ 2 ^ (53 : Nat)) : integer? (ofNat n) = some (n : Int) := by
  rw [← ofInt_natCast]
  exact integer?_ofInt h

/-- **The integer that a double is reads as a double of the same value**, however large it is. -/
theorem same_ofInt (hfinite : isFinite x) (h : integer? x = some n) (hreal : isFinite (ofInt n)) :
    same (ofInt n) x := by
  have hexact : exact (ofInt n) = n * oneInUnits :=
    exact_ofInt_of_isExact hreal ⟨x, hfinite, exact_of_integer? h⟩
  exact same_of_integer? (integer?_of_exact hreal hexact) h hreal hfinite

/-- **Numbers of things are told apart**, up to 53 binary digits. -/
theorem ofNat_injective {m n : Nat} (hm : m ≤ 2 ^ (53 : Nat)) (hn : n ≤ 2 ^ (53 : Nat))
    (h : ofNat m = ofNat n) : m = n := by
  have hinteger := integer?_ofNat hm
  rw [h, integer?_ofNat hn, Option.some.injEq, Int.natCast_inj] at hinteger
  exact hinteger.symm

/-! ## Order -/

/-- **Doubles rank as the units that they are**, on either side of zero. -/
theorem rank_lt_rank_iff (x y : Float) : rank x < rank y ↔ exact x < exact y := by
  have hpos : ∀ bits, 0 < units bits ↔ 0 < bits := fun bits => by
    have hzero : units 0 < units bits ↔ 0 < bits := units_strictMono.lt_iff_lt
    rwa [units_zero] at hzero
  have hx := hpos (magnitude x)
  have hy := hpos (magnitude y)
  have hlt : units (magnitude x) < units (magnitude y) ↔ magnitude x < magnitude y :=
    units_strictMono.lt_iff_lt
  have hgt : units (magnitude y) < units (magnitude x) ↔ magnitude y < magnitude x :=
    units_strictMono.lt_iff_lt
  rw [rank, rank, exact, exact]
  split <;> split <;> omega

/-- **Integers of up to 53 binary digits are compared as doubles as they are themselves.** -/
theorem compare?_ofInt {m n : Int} (hm : m.natAbs ≤ 2 ^ (53 : Nat)) (hn : n.natAbs ≤ 2 ^ (53 : Nat)) :
    compare? (ofInt m) (ofInt n) = some (compare m n) := by
  have hrank : ∀ {m n : Int}, m.natAbs ≤ 2 ^ (53 : Nat) → n.natAbs ≤ 2 ^ (53 : Nat) →
      (rank (ofInt m) < rank (ofInt n) ↔ m < n) := by
    intro m n hm hn
    rw [rank_lt_rank_iff, exact_of_integer? (integer?_ofInt hm), exact_of_integer? (integer?_ofInt hn)]
    exact Int.mul_lt_mul_right (Int.natCast_pos.2 oneInUnits_pos)
  have hfinite : ∀ {m : Int}, m.natAbs ≤ 2 ^ (53 : Nat) → isFinite (ofInt m) :=
    fun hm => isFinite_ofInt (Nat.le_trans hm (by decide))
  rw [compare?_of_isFinite (hfinite hm) (hfinite hn), Option.some.injEq]
  rcases Int.lt_trichotomy m n with hlt | rfl | hgt
  · rw [compare_lt_iff_lt.2 hlt, compare_lt_iff_lt.2 ((hrank hm hn).2 hlt)]
  · rw [Std.ReflOrd.compare_self, Std.ReflOrd.compare_self]
  · rw [compare_gt_iff_gt.2 hgt, compare_gt_iff_gt.2 ((hrank hn hm).2 hgt)]

end Reporting.Double
