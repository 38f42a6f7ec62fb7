import Reporting.Json.Printer
import Reporting.Json.Token
import Reporting.Proofs.Text.Reader

/-!
# Proofs/Json/Number — numbers that are read back

A number is scanned up to a character that cannot go on with it, so what is written is scanned as a
whole wherever it stands in a document (`Ends`).  The decimal that the scanner sees need not be the
one that was written: digits move between the number and its exponent, and zeros come in.  Both are
near the same double (`Scans.congr`), and a double is written with a decimal that is near it and no
other.  So every number is read back bit for bit (`Number.scan_text`).
-/

namespace Reporting

-- Powers are those of natural numbers, whatever else has powers.
attribute [local instance (high)] instPowNat

/-! ## Digits -/

namespace Double

/-- Zeros at the end of the digits may go into the exponent. -/
theorem decimalMagnitude_mul_pow (digits zeros : Nat) (exponent : Int) :
    decimalMagnitude (digits * 10 ^ zeros) exponent =
      decimalMagnitude digits (exponent + zeros) := by
  induction zeros generalizing exponent with
  | zero => simp
  | succ zeros ih =>
    rw [Nat.pow_succ, ← Nat.mul_assoc, decimalMagnitude_shift, ih]
    congr 1
    omega

theorem isDigit_of_mem_decimalDigits {n : Nat} {c : Char} (h : c ∈ decimalDigits n) : c.isDigit :=
  Nat.isDigit_of_mem_toDigits (by decide) (by decide) h

/-- Only zero begins with a zero. -/
theorem eq_zero_of_head?_decimalDigits {n : Nat} (h : (decimalDigits n).head? = some '0') :
    n = 0 := by
  induction n using Nat.strongRecOn with
  | ind n ih =>
    by_cases hn : n < 10
    · rw [decimalDigits, Nat.toDigits_of_lt_base hn] at h
      have hdigit : ∀ k < 10, k.digitChar = '0' → k = 0 := by decide
      exact hdigit n hn (Option.some.inj h)
    · have hhead : (decimalDigits (n / 10)).head? = some '0' := by
        rw [decimalDigits, Nat.toDigits_of_base_le (by decide) (by omega), List.head?_append] at h
        cases heq : Nat.toDigits 10 (n / 10) with
        | nil => exact absurd heq Nat.toDigits_ne_nil
        | cons c more =>
          rw [heq] at h
          rwa [decimalDigits, heq]
      have := ih (n / 10) (by omega) hhead
      omega

end Double

namespace Json

variable {negative : Bool} {whole fraction text rest : List Char} {d e : Double.Decimal}

/-- The part of a number before its point: digits, of which the first is zero only if it is alone. -/
structure Whole (ds : List Char) : Prop where
  isDigit : ∀ c ∈ ds, c.isDigit
  ne_nil : ds ≠ []
  length_eq : ds.head? = some '0' → ds.length = 1

theorem whole_decimalDigits (n : Nat) : Whole (Double.decimalDigits n) where
  isDigit _ := Double.isDigit_of_mem_decimalDigits
  ne_nil := Nat.toDigits_ne_nil
  length_eq h := by
    rw [Double.eq_zero_of_head?_decimalDigits h]
    rfl

/-- A whole part begins with a digit. -/
theorem Whole.exists_eq_cons (h : Whole whole) : ∃ c more, whole = c :: more ∧ c.isDigit := by
  cases whole with
  | nil => exact absurd rfl h.ne_nil
  | cons c more => exact ⟨c, more, rfl, h.isDigit c List.mem_cons_self⟩

/-- Whether a text does not go on with digits. -/
def NoDigit (rest : List Char) : Prop := ∀ c ∈ rest.head?, c.isDigit = false

/-- Whether a text does not go on with a number. -/
def Ends (rest : List Char) : Prop :=
  ∀ c ∈ rest.head?, c.isDigit = false ∧ c ≠ '.' ∧ c ≠ 'e' ∧ c ≠ 'E'

theorem Ends.noDigit (h : Ends rest) : NoDigit rest := fun c hc => (h c hc).1

theorem digits_append (h : ∀ c ∈ text, c.isDigit) (hrest : NoDigit rest) :
    digits (text ++ rest) = text :=
  Text.takeWhile_append_of_head? h hrest

theorem afterDigits_append (h : ∀ c ∈ text, c.isDigit) (hrest : NoDigit rest) :
    afterDigits (text ++ rest) = rest :=
  Text.dropWhile_append_of_head? h hrest

/-! ## Scanning -/

/-- The whole part of a number is scanned up to where its digits end. -/
theorem scanNumber_append (h : Whole whole) (hrest : NoDigit rest) :
    scanNumber negative (whole ++ rest) = scanAfterWhole negative whole rest := by
  have hnil : whole.isEmpty = false := by simpa using h.ne_nil
  have hzero : ¬ (whole.head? = some '0' ∧ whole.length ≠ 1) := fun hw => hw.2 (h.length_eq hw.1)
  rw [scanNumber, digits_append h.isDigit hrest, afterDigits_append h.isDigit hrest]
  simp only [hnil, hzero, Bool.false_eq_true, if_false]

theorem scanAfterWhole_of_ends (h : Ends rest) : scanAfterWhole negative whole rest =
    (numberToken (Number.ofInteger? negative (Text.digitsValue whole)), rest) := by
  cases rest with
  | nil => rfl
  | cons c rest =>
    obtain ⟨-, hpoint, he, hE⟩ := h c rfl
    rw [scanAfterWhole, if_neg hpoint, if_neg (not_or.2 ⟨he, hE⟩)]

/-- The digits behind the point are scanned up to where they end. -/
theorem scanAfterWhole_point (h : ∀ c ∈ fraction, c.isDigit) (hne : fraction ≠ [])
    (hrest : NoDigit rest) : scanAfterWhole negative whole ('.' :: (fraction ++ rest)) =
      scanAfterFraction negative (Text.digitsValue (whole ++ fraction)) fraction.length rest := by
  have hnil : fraction.isEmpty = false := by simpa using hne
  rw [scanAfterWhole, if_pos rfl]
  simp only [digits_append h hrest, afterDigits_append h hrest, hnil, Bool.false_eq_true, if_false]

theorem scanAfterFraction_of_ends {n places : Nat} (h : Ends rest) :
    scanAfterFraction negative n places rest =
      (numberToken (Number.ofDecimal? negative n (-places)), rest) := by
  cases rest with
  | nil => rfl
  | cons c rest =>
    obtain ⟨-, -, he, hE⟩ := h c rfl
    rw [scanAfterFraction, if_neg (not_or.2 ⟨he, hE⟩)]

/-- An exponent is scanned up to where its digits end, its sign being written out. -/
theorem scanExponent_append {n places : Nat} (exponent : Int) (h : NoDigit rest) :
    scanExponent negative n places ((if exponent < 0 then '-' else '+') ::
        (Double.decimalDigits exponent.natAbs ++ rest)) =
      (numberToken (Number.ofDecimal? negative n (exponent - places)), rest) := by
  have hdigits : ∀ c ∈ Double.decimalDigits exponent.natAbs, c.isDigit :=
    fun _ => Double.isDigit_of_mem_decimalDigits
  have hnil : (Double.decimalDigits exponent.natAbs).isEmpty = false := by
    simpa using (whole_decimalDigits exponent.natAbs).ne_nil
  have hvalue : Text.digitsValue (Double.decimalDigits exponent.natAbs) = exponent.natAbs :=
    Text.digitsValue_toDigits exponent.natAbs
  have hsign : ∀ more, exponentSign ((if exponent < 0 then '-' else '+') :: more) =
      (decide (exponent < 0), more) := fun more => by
    by_cases hneg : exponent < 0 <;> simp [hneg, exponentSign]
  have hexponent : (if exponent < 0 then -(exponent.natAbs : Int) else exponent.natAbs) =
      exponent := by omega
  simp only [scanExponent, hsign, scanExponentDigits, digits_append hdigits h,
    afterDigits_append hdigits h, hnil, hvalue, Bool.false_eq_true, if_false, decide_eq_true_eq,
    hexponent]

/-! ## Integers -/

/-- An integer that 64 bits hold is that integer. -/
theorem Number.ofInteger?_natAbs {n : Int} (fits : Number.Fits n) :
    Number.ofInteger? (decide (n < 0)) n.natAbs = some (.int n fits) := by
  obtain ⟨hlow, hhigh⟩ := fits
  rw [ofInteger?]
  by_cases hneg : n < 0
  · have hn : -(n.natAbs : Int) = n := by omega
    rw [if_pos (decide_eq_true hneg), dif_pos (by omega)]
    simp only [hn]
  · have hn : (n.natAbs : Int) = n := by omega
    rw [if_neg (by simpa using hneg), dif_pos (by omega)]
    simp only [hn]

/-! ## Decimals -/

/-- Whether a text that begins with a digit is scanned as a decimal, whatever sign is before it. -/
structure Scans (text : List Char) (d : Double.Decimal) : Prop where
  exists_eq_cons : ∃ c more, text = c :: more ∧ c.isDigit
  scanNumber : ∀ negative rest, Ends rest → scanNumber negative (text ++ rest) =
    (numberToken (Number.ofDecimal? negative d.digits d.exponent), rest)

/-- **Decimals near one double are one number.** -/
theorem Scans.congr (h : Scans text d) (heq : d.magnitude = e.magnitude) : Scans text e where
  exists_eq_cons := h.exists_eq_cons
  scanNumber negative rest hrest := by
    have hfloat : Double.ofDecimal? negative d.digits d.exponent =
        Double.ofDecimal? negative e.digits e.exponent := by
      simp only [Double.Decimal.magnitude] at heq
      rw [Double.ofDecimal?_eq, Double.ofDecimal?_eq, heq]
    rw [h.scanNumber negative rest hrest]
    simp only [Number.ofDecimal?, hfloat]

theorem scans_point (h : Whole whole) (hfraction : ∀ c ∈ fraction, c.isDigit)
    (hne : fraction ≠ []) : Scans (whole ++ '.' :: fraction)
      ⟨Text.digitsValue (whole ++ fraction), -fraction.length⟩ where
  exists_eq_cons := by
    obtain ⟨c, more, rfl, hc⟩ := h.exists_eq_cons
    exact ⟨c, more ++ '.' :: fraction, rfl, hc⟩
  scanNumber negative rest hrest := by
    have hpoint : NoDigit ('.' :: (fraction ++ rest)) := by rintro c ⟨⟩; rfl
    rw [List.append_assoc, List.cons_append, scanNumber_append h hpoint,
      scanAfterWhole_point hfraction hne hrest.noDigit, scanAfterFraction_of_ends hrest]

theorem scans_exponent (h : Whole whole) (hfraction : ∀ c ∈ fraction, c.isDigit) (exponent : Int) :
    Scans (whole ++ (if fraction.isEmpty then [] else '.' :: fraction) ++
        'e' :: (if exponent < 0 then '-' else '+') :: Double.decimalDigits exponent.natAbs)
      ⟨Text.digitsValue (whole ++ fraction), exponent - fraction.length⟩ where
  exists_eq_cons := by
    obtain ⟨c, more, rfl, hc⟩ := h.exists_eq_cons
    exact ⟨c, _, rfl, hc⟩
  scanNumber negative rest hrest := by
    have hletter : ∀ more, NoDigit ('e' :: more) := by rintro more c ⟨⟩; rfl
    cases fraction with
    | nil =>
      have happend : whole ++ [] ++ 'e' :: (if exponent < 0 then '-' else '+') ::
          Double.decimalDigits exponent.natAbs ++ rest = whole ++ 'e' ::
            (if exponent < 0 then '-' else '+') ::
              (Double.decimalDigits exponent.natAbs ++ rest) := by simp
      rw [if_pos List.isEmpty_nil, happend, scanNumber_append h (hletter _), scanAfterWhole,
        if_neg (by decide), if_pos (.inl rfl), scanExponent_append exponent hrest.noDigit,
        List.append_nil, List.length_nil]
    | cons f fs =>
      have happend : whole ++ ('.' :: f :: fs) ++ 'e' :: (if exponent < 0 then '-' else '+') ::
          Double.decimalDigits exponent.natAbs ++ rest = whole ++ '.' :: ((f :: fs) ++ 'e' ::
            (if exponent < 0 then '-' else '+') ::
              (Double.decimalDigits exponent.natAbs ++ rest)) := by simp
      have hpoint : ∀ more, NoDigit ('.' :: more) := by rintro more c ⟨⟩; rfl
      rw [if_neg (by simp), happend, scanNumber_append h (hpoint _),
        scanAfterWhole_point hfraction (by simp) (hletter _), scanAfterFraction, if_pos (.inl rfl),
        scanExponent_append exponent hrest.noDigit]

/-! ### Where the point is -/

theorem isDigit_of_mem_zeros {zeros : Nat} {c : Char} (h : c ∈ List.replicate zeros '0') :
    c.isDigit := by
  rw [List.eq_of_mem_replicate h]
  rfl

/-- Zeros after the point and before all other digits. -/
theorem scans_point_before (h : Whole whole) (zeros : Nat) :
    Scans ('0' :: '.' :: List.replicate zeros '0' ++ whole)
      ⟨Text.digitsValue whole, -(zeros + whole.length : Nat)⟩ := by
  have hdigits : ∀ c ∈ List.replicate zeros '0' ++ whole, c.isDigit := fun c hc =>
    (List.mem_append.1 hc).elim isDigit_of_mem_zeros (h.isDigit c)
  have hvalue : Text.digitsValue ('0' :: (List.replicate zeros '0' ++ whole)) =
      Text.digitsValue whole := by
    rw [← List.cons_append, ← List.replicate_succ, Text.digitsValue, Nat.ofDigitChars_append,
      Nat.ofDigitChars_replicate_zero, Nat.mul_zero]
    rfl
  have hscans := scans_point (whole_decimalDigits 0) hdigits
    (List.append_ne_nil_of_right_ne_nil _ h.ne_nil)
  rw [List.length_append, List.length_replicate] at hscans
  exact hvalue ▸ hscans

/-- Zeros after all other digits, and one behind the point. -/
theorem scans_point_behind (h : Whole whole) (hhead : whole.head? ≠ some '0') (zeros : Nat) :
    Scans (whole ++ List.replicate zeros '0' ++ ['.', '0']) ⟨Text.digitsValue whole, zeros⟩ := by
  have hwhole : Whole (whole ++ List.replicate zeros '0') := by
    refine ⟨fun c hc => (List.mem_append.1 hc).elim (h.isDigit c) isDigit_of_mem_zeros,
      List.append_ne_nil_of_left_ne_nil h.ne_nil _, fun hzero => absurd ?_ hhead⟩
    obtain ⟨c, more, rfl, -⟩ := h.exists_eq_cons
    exact hzero
  have hvalue : Text.digitsValue (whole ++ List.replicate zeros '0' ++ ['0']) =
      Text.digitsValue whole * 10 ^ (zeros + 1) := by
    rw [List.append_assoc, ← List.replicate_succ', Text.digitsValue, Nat.ofDigitChars_append,
      Nat.ofDigitChars_replicate_zero, Nat.mul_comm]
    rfl
  have hplaces : -(['0'].length : Int) + (zeros + 1 : Nat) = zeros := by
    rw [List.length_singleton]
    omega
  have hzero : ∀ c ∈ ['0'], c.isDigit := List.forall_mem_singleton.2 rfl
  refine (scans_point hwhole hzero (List.cons_ne_nil _ _)).congr ?_
  rw [hvalue, Double.Decimal.magnitude, Double.decimalMagnitude_mul_pow, hplaces]
  rfl

/-- The point among the digits. -/
theorem scans_point_among (h : Whole whole) (hhead : whole.head? ≠ some '0') {place : Nat}
    (hpos : 0 < place) (hlt : place < whole.length) :
    Scans (whole.take place ++ '.' :: whole.drop place)
      ⟨Text.digitsValue whole, place - whole.length⟩ := by
  have hwhole : Whole (whole.take place) := by
    refine ⟨fun c hc => h.isDigit c (List.mem_of_mem_take hc), ?_, fun hzero => absurd ?_ hhead⟩
    · rw [Ne, List.take_eq_nil_iff, not_or]
      exact ⟨Nat.ne_of_gt hpos, h.ne_nil⟩
    · rwa [List.head?_take, if_neg (Nat.ne_of_gt hpos)] at hzero
  have hscans := scans_point hwhole (fun c hc => h.isDigit c (List.mem_of_mem_drop hc))
    (mt List.drop_eq_nil_iff.1 (Nat.not_le.2 hlt))
  have hplaces : (-((whole.length - place : Nat) : Int)) = place - whole.length := by omega
  rwa [List.take_append_drop, List.length_drop, hplaces] at hscans

theorem scans_positionalText (h : Whole whole) (hhead : whole.head? ≠ some '0') (exponent : Int) :
    Scans (Double.Layout.exchange.positionalText whole (whole.length + exponent))
      ⟨Text.digitsValue whole, exponent⟩ := by
  rw [Double.Layout.positionalText]
  split
  · have hscans := scans_point_before h (-(whole.length + exponent)).toNat
    have hplaces : (-((-(whole.length + exponent)).toNat + whole.length : Nat) : Int) = exponent := by
      omega
    rwa [hplaces] at hscans
  · split
    · have hscans := scans_point_behind h hhead ((whole.length + exponent).toNat - whole.length)
      have hplaces : (((whole.length + exponent).toNat - whole.length : Nat) : Int) = exponent := by
        omega
      rwa [hplaces] at hscans
    · have hscans := scans_point_among h hhead (show 0 < (whole.length + exponent).toNat by omega)
        (by omega)
      have hplaces : ((whole.length + exponent).toNat : Int) - whole.length = exponent := by omega
      rwa [hplaces] at hscans

theorem scans_scientificText (h : Whole whole) (hhead : whole.head? ≠ some '0') (exponent : Int) :
    Scans (Double.scientificText whole (whole.length + exponent))
      ⟨Text.digitsValue whole, exponent⟩ := by
  obtain ⟨first, fraction, rfl, hfirst⟩ := h.exists_eq_cons
  have hwhole : Whole [first] :=
    ⟨fun c hc => List.mem_singleton.1 hc ▸ hfirst, List.cons_ne_nil _ _, fun _ => rfl⟩
  have hscans := scans_exponent hwhole (fun c hc => h.isDigit c (List.mem_cons_of_mem first hc))
    ((first :: fraction).length + exponent - 1)
  have hplaces : (first :: fraction).length + exponent - 1 - fraction.length = exponent := by
    rw [List.length_cons]
    omega
  rwa [hplaces] at hscans

/-- **A decimal that is not negative is scanned as itself**, or as another that is near the same
double. -/
theorem scans_decimal (d : Double.Decimal) : Scans (Double.Layout.exchange.decimal d) d := by
  obtain ⟨n, exponent⟩ := d
  have hvalue : Text.digitsValue (Double.decimalDigits n) = n := Text.digitsValue_toDigits n
  simp only [Double.Layout.decimal]
  split
  · rename_i hzero
    subst hzero
    refine (scans_point_before (whole_decimalDigits 0) 0).congr ?_
    rw [hvalue, Double.Decimal.magnitude, Double.decimalMagnitude_zero, Double.Decimal.magnitude,
      Double.decimalMagnitude_zero]
  · rename_i hne
    have hwhole := whole_decimalDigits n
    have hhead : (Double.decimalDigits n).head? ≠ some '0' :=
      fun h => hne (Double.eq_zero_of_head?_decimalDigits h)
    split
    · have hscans := scans_positionalText hwhole hhead exponent
      rwa [hvalue] at hscans
    · have hscans := scans_scientificText hwhole hhead exponent
      rwa [hvalue] at hscans

/-! ## Numbers -/

/-- A decimal near a real number is that number, with its sign. -/
theorem Number.ofDecimal?_shortest {x : Float} (finite : Double.isFinite x) (tie : Double.Tie) :
    Number.ofDecimal? (Double.isNegative x) (Double.shortest tie (Double.magnitude x)).digits
      (Double.shortest tie (Double.magnitude x)).exponent = some (.float x finite) := by
  have hlt : Double.magnitude x < Double.infinityBits := of_decide_eq_true finite
  have hmagnitude := Double.magnitude_shortest tie (Double.magnitude x)
  have hfloat : Double.ofDecimal? (Double.isNegative x)
      (Double.shortest tie (Double.magnitude x)).digits
      (Double.shortest tie (Double.magnitude x)).exponent = some x := by
    rw [Double.Decimal.magnitude] at hmagnitude
    rw [Double.ofDecimal?_eq, hmagnitude, if_pos hlt,
      Double.ofMagnitude_magnitude (Nat.le_of_lt hlt)]
  simp only [ofDecimal?, hfloat, Option.pmap_some]

/-- A digit is not any character that is none. -/
theorem ne_of_isDigit {c d : Char} (hc : c.isDigit) (hd : d.isDigit = false) : c ≠ d := by
  rintro rfl
  cases hc.symm.trans hd

theorem scanToken_digit {c : Char} (h : c.isDigit) (rest : List Char) :
    scanToken c rest = scanNumber false (c :: rest) := by
  have hmark : mark? c = none := by simp [mark?, ne_of_isDigit h]
  rw [scanToken, hmark]
  simp [ne_of_isDigit h, h]

/-- A number is a token of its own, with its sign if it has one. -/
theorem scan_signed {token : Token} (hstart : ∃ c more, text = c :: more ∧ c.isDigit)
    (h : scanNumber negative (text ++ rest) = (token, rest)) :
    scan ((if negative then '-' :: text else text) ++ rest) = token :: scan rest := by
  cases negative with
  | true =>
    have htoken : scanToken '-' (text ++ rest) = (token, rest) := h
    rw [if_pos rfl, List.cons_append, scan, if_neg (by decide), htoken]
  | false =>
    obtain ⟨c, more, rfl, hc⟩ := hstart
    have hspace : isSpace c = false := by simp [isSpace, ne_of_isDigit hc]
    have htoken : scanToken c (more ++ rest) = (token, rest) := (scanToken_digit hc _).trans h
    rw [if_neg Bool.false_ne_true, List.cons_append, scan, if_neg (Bool.eq_false_iff.1 hspace),
      htoken]

/-- **A number is read back**, up to where it ends. -/
theorem Number.scan_text (n : Number) (hrest : Ends rest) :
    scan (n.text ++ rest) = .number n :: scan rest := by
  cases n with
  | int n fits =>
    have hwhole := whole_decimalDigits n.natAbs
    have hscan : scanNumber (decide (n < 0)) (Double.decimalDigits n.natAbs ++ rest) =
        (.number (.int n fits), rest) := by
      rw [scanNumber_append hwhole hrest.noDigit, scanAfterWhole_of_ends hrest,
        Double.decimalDigits, Text.digitsValue_toDigits, ofInteger?_natAbs fits]
      rfl
    have hscan := scan_signed hwhole.exists_eq_cons hscan
    simpa only [text, intText, decide_eq_true_eq] using hscan
  | float x finite =>
    have hdecimal := scans_decimal (Double.shortest .even (Double.magnitude x))
    have hscan := hdecimal.scanNumber (Double.isNegative x) rest hrest
    rw [ofDecimal?_shortest finite] at hscan
    rw [text, Double.Layout.text, if_pos finite]
    exact scan_signed hdecimal.exists_eq_cons hscan

end Json

end Reporting
