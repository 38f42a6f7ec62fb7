import Reporting.Double.Reading

/-!
# Proofs/Double/Rank — real doubles have a place

A double that is a real number has a rank, so two of them are always compared
(`compare?_of_isFinite`).  They have the same value exactly if their bits agree once zero has lost
its sign (`same_iff_toBits`), and also if they are one integer (`same_of_integer?`).  What is read
from an integer of 64 bits is a real number (`isFinite_ofInt`).
-/

namespace Reporting.Double

-- Powers are those of natural numbers, whatever else has powers.
attribute [local instance (high)] instPowNat

/-! ## Ranks -/

/-- The rank of a real double: its magnitude, below zero if it is negative. -/
def rank (x : Float) : Int := if isNegative x then -(magnitude x : Int) else magnitude x

theorem magnitude_lt_of_isFinite {x : Float} (h : isFinite x) : magnitude x < infinityBits :=
  of_decide_eq_true h

theorem rank?_of_isFinite {x : Float} (h : isFinite x) : rank? x = some (rank x) :=
  if_pos (Nat.le_of_lt (magnitude_lt_of_isFinite h))

theorem rank?_eq_some_iff {x : Float} {n : Int} :
    rank? x = some n ↔ magnitude x ≤ infinityBits ∧ rank x = n := by
  rw [rank?]
  split
  · rename_i h
    rw [Option.some.injEq]
    exact (and_iff_right h).symm
  · rename_i h
    exact iff_of_false nofun fun hn => h hn.1

/-- **Two real doubles are compared by rank.** -/
theorem compare?_of_isFinite {x y : Float} (hx : isFinite x) (hy : isFinite y) :
    compare? x y = some (compare (rank x) (rank y)) := by
  rw [compare?, rank?_of_isFinite hx, rank?_of_isFinite hy]

theorem same_iff_rank {x y : Float} (hx : isFinite x) (hy : isFinite y) :
    same x y ↔ rank x = rank y := by
  rw [same, compare?_of_isFinite hx hy, beq_iff_eq, Option.some.injEq,
    Std.LawfulEqOrd.compare_eq_iff_eq]

/-- **Doubles of one value are the same double, or both are zeros.** -/
theorem eq_or_zero_of_same {x y : Float} (h : same x y) :
    x = y ∨ magnitude x = 0 ∧ magnitude y = 0 := by
  have hcompare : compare? x y = some .eq := eq_of_beq h
  rw [compare?] at hcompare
  split at hcompare
  · rename_i a b ha hb
    obtain ⟨hx, rfl⟩ := rank?_eq_some_iff.1 ha
    obtain ⟨hy, rfl⟩ := rank?_eq_some_iff.1 hb
    have hrank : rank x = rank y := Std.LawfulEqOrd.eq_of_compare (Option.some.inj hcompare)
    have hparts : isNegative x = isNegative y ∧ magnitude x = magnitude y ∨
        magnitude x = 0 ∧ magnitude y = 0 := by
      simp only [rank] at hrank
      cases hnx : isNegative x <;> cases hny : isNegative y <;> simp [hnx, hny] at hrank ⊢ <;> omega
    rcases hparts with hparts | hzeros
    · rw [← ofMagnitude_magnitude hx, ← ofMagnitude_magnitude hy, hparts.1, hparts.2]
      exact .inl rfl
    · exact .inr hzeros
  · cases hcompare

theorem toNat_toBits (x : Float) :
    x.toBits.toNat = (if isNegative x then signBit else 0) + magnitude x := by
  have hlt := x.toBits.toNat_lt
  by_cases h : isNegative x
  · have hle : signBit ≤ x.toBits.toNat := of_decide_eq_true h
    rw [if_pos h]
    simp only [magnitude, signBit] at hle ⊢
    omega
  · have hle : ¬ signBit ≤ x.toBits.toNat := fun hle => h (decide_eq_true hle)
    rw [if_neg h]
    simp only [magnitude, signBit] at hle ⊢
    omega

/-- The bits of a double without the sign of zero rise and fall with its rank. -/
theorem toNat_toBits_unsignedZero (x : Float) :
    ((unsignedZero x).toBits.toNat : Int) =
      if rank x < 0 then signBit - rank x else rank x := by
  simp only [unsignedZero, rank]
  by_cases h : magnitude x = 0
  · have hzero : zero.toBits.toNat = 0 := by
      rw [zero, toNat_toBits_ofMagnitude]
      rfl
    simp [h, hzero]
  · rw [if_neg h, toNat_toBits]
    by_cases hneg : isNegative x
    · simp only [if_pos hneg, signBit]
      omega
    · simp only [if_neg hneg]
      omega

/-- **Real doubles have the same value exactly if they have the same bits** — but for the sign of
zero. -/
theorem same_iff_toBits {x y : Float} (hx : isFinite x) (hy : isFinite y) :
    same x y ↔ (unsignedZero x).toBits = (unsignedZero y).toBits := by
  rw [same_iff_rank hx hy, ← UInt64.toNat_inj, ← Int.ofNat_inj, toNat_toBits_unsignedZero,
    toNat_toBits_unsignedZero]
  have hx := magnitude_lt_of_isFinite hx
  have hy := magnitude_lt_of_isFinite hy
  have hxr : -infinityBits < rank x ∧ rank x < infinityBits := by
    simp only [rank]; split <;> omega
  have hyr : -infinityBits < rank y ∧ rank y < infinityBits := by
    simp only [rank]; split <;> omega
  simp only [signBit, infinityBits] at hxr hyr ⊢
  constructor
  · intro h
    rw [h]
  · intro h
    split at h <;> split at h <;> omega

/-! ## Integers -/

theorem units_injective {a b : Nat} (h : units a = units b) : a = b := by
  have ha := nearest_units a Nat.one_pos
  rwa [h, nearest_units b Nat.one_pos, eq_comm] at ha

theorem units_zero : units 0 = 0 := by decide

/-- Both zeros are the integer zero. -/
theorem integer?_of_magnitude_eq_zero {x : Float} (h : magnitude x = 0) : integer? x = some 0 := by
  have hfinite : isFinite x := by
    rw [isFinite, h]
    rfl
  rw [integer?, h, units_zero]
  simp [hfinite]

/-- An integer that a double is, in units. -/
theorem units_of_integer? {x : Float} {n : Int} (h : integer? x = some n) :
    units (magnitude x) = n.natAbs * oneInUnits ∧ (isNegative x → n ≤ 0) ∧
      (¬ isNegative x → 0 ≤ n) := by
  simp only [integer?] at h
  split at h
  · rename_i hint
    have hdiv := Nat.div_add_mod (units (magnitude x)) oneInUnits
    rw [hint.2, Nat.add_zero, Nat.mul_comm] at hdiv
    obtain rfl := Option.some.inj h
    by_cases hneg : isNegative x
    · refine ⟨?_, fun _ => ?_, fun h => absurd hneg h⟩
      · rw [if_pos hneg, Int.natAbs_neg, Int.natAbs_natCast, hdiv]
      · rw [if_pos hneg]
        exact Int.neg_nonpos_of_nonneg (Int.natCast_nonneg _)
    · refine ⟨?_, fun h => absurd h hneg, fun _ => ?_⟩
      · rw [if_neg hneg, Int.natAbs_natCast, hdiv]
      · rw [if_neg hneg]
        exact Int.natCast_nonneg _
  · cases h

/-- **Doubles that are one integer have the same value.** -/
theorem same_of_integer? {x y : Float} {n : Int} (hx : integer? x = some n)
    (hy : integer? y = some n) (hfx : isFinite x) (hfy : isFinite y) : same x y := by
  obtain ⟨hux, hnx, hpx⟩ := units_of_integer? hx
  obtain ⟨huy, hny, hpy⟩ := units_of_integer? hy
  have hmag : magnitude x = magnitude y := units_injective (hux.trans huy.symm)
  rw [same_iff_rank hfx hfy, rank, rank, hmag]
  by_cases hn : n = 0
  · have hzero : magnitude y = 0 :=
      units_injective (by rw [huy, hn, units_zero]; exact Nat.zero_mul _)
    simp [hzero]
  · have hsign : isNegative x = isNegative y := by
      cases h : isNegative x <;> cases h' : isNegative y <;> simp_all <;> omega
    rw [hsign]

/-- The magnitude nearest to a whole number of few binary digits. -/
theorem nearest_le {numerator places : Nat} (h : numerator < 2 ^ (fractionBits + 1 + places)) :
    nearest numerator 1 ≤ (places + 2) * binade := by
  obtain ⟨cut, hcut⟩ : ∃ cut, numerator.log2 - fractionBits = cut := ⟨_, rfl⟩
  have hlog : numerator < 2 ^ (fractionBits + 1 + cut) :=
    Nat.lt_of_lt_of_le Nat.lt_log2_self (Nat.pow_le_pow_right (by decide) (by omega))
  have hbelow : numerator / 2 ^ cut < 2 * binade := by
    rw [two_mul_binade, Nat.div_lt_iff_lt_mul (Nat.two_pow_pos cut), ← Nat.pow_add]
    exact hlog
  have hle : cut ≤ places := by
    by_cases hzero : numerator = 0
    · subst hzero
      simp only [Nat.log2_zero] at hcut
      omega
    · have := (Nat.log2_lt hzero).2 h
      omega
  have hmul : cut * binade ≤ places * binade := Nat.mul_le_mul_right _ hle
  simp only [nearest, Nat.div_one, hcut, Nat.one_mul]
  rw [Nat.add_mul]
  split <;> omega

/-- **What is read from an integer of few binary digits is a real number.** -/
theorem isFinite_ofInt {n : Int} (h : n.natAbs ≤ 2 ^ (64 : Nat)) : isFinite (ofInt n) := by
  have hplaces : n.natAbs * oneInUnits < 2 ^ (fractionBits + 1 + 1086) :=
    calc n.natAbs * oneInUnits ≤ 2 ^ (64 : Nat) * oneInUnits := Nat.mul_le_mul_right _ h
      _ = 2 ^ (64 + unitPlaces) := (Nat.pow_add ..).symm
      _ < 2 ^ (fractionBits + 1 + 1086) :=
        Nat.pow_lt_pow_right (by decide) (by unfold unitPlaces; decide)
  have hlt : nearest (n.natAbs * oneInUnits) 1 < infinityBits :=
    Nat.lt_of_le_of_lt (nearest_le hplaces) (by decide)
  rw [ofInt, isFinite, magnitude_ofMagnitude, Nat.min_eq_left (Nat.le_of_lt hlt)]
  exact decide_eq_true hlt

end Reporting.Double
