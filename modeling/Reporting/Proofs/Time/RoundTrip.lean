import Reporting.Proofs.Text.Reader
import Reporting.Proofs.Time.Calendar
import Reporting.Time.Reader

/-!
# Proofs/Time/RoundTrip — instants that are read back

The text that requests have for an instant is read back as that instant (`Instant.ofWire?_wireText`):
each part of it by the reader that stands in its place, the date by the calendar, a leap second by its
sixtieth second.  So no two instants have one text, in result rows either (`Instant.text_injective`).
Records are read more strictly: the text of a result row is that of a timestamp only if the year has four
digits and no sign, and no other text of an instant is a bare date, so it is read back exactly then
(`Instant.ofRecord?_text`).  Timestamps at other offsets are read as those in universal time are
(`Instant.ofTimestamp?_secondText`).
-/

namespace Reporting.Time

open Text (Reader number literal)

-- Powers are those of natural numbers, whatever else has powers.
attribute [local instance (high)] instPowNat

/-! ## Parts -/

theorem spacedLiteral_cons {c : Char} (h : Text.isBlank c = false) (rest : List Char) :
    spacedLiteral c (c :: rest) = some ((), rest) := by
  rw [spacedLiteral, Text.trimStart_cons h, Text.literal_cons]

theorem part_padded {n : Nat} (h : n < 100) (rest : List Char) :
    part (padded 2 n ++ rest) = some (n, rest) := by
  have hlength : (padded 2 n).length = 2 := length_padded (by decide) h
  have hstart : Text.trimStart (padded 2 n ++ rest) = padded 2 n ++ rest := by
    obtain ⟨c, more, heq, hc⟩ := exists_padded_eq_cons Nat.two_pos n
    rw [heq, List.cons_append, Text.trimStart_cons (Text.isBlank_of_isDigit hc)]
  rw [part, hstart]
  exact number_padded (by decide) (Nat.le_of_eq hlength) (.inl hlength)

theorem signedYear_minus (rest : List Char) : signedYear ('-' :: rest) =
    (number 1 rest.length rest).map fun (n, rest) => (-(n : Int), rest) := rfl

theorem signedYear_plus (rest : List Char) : signedYear ('+' :: rest) =
    (number 1 rest.length rest).map fun (n, rest) => ((n : Int), rest) := rfl

theorem signedYear_digit {c : Char} (h : c.isDigit) (rest : List Char) : signedYear (c :: rest) =
    (number 1 4 (c :: rest)).map fun (n, rest) => ((n : Int), rest) := by
  rw [signedYear, Text.trimStart_cons (Text.isBlank_of_isDigit h)]
  split
  · rename_i heq
    cases heq
    cases h
  · rename_i heq
    cases heq
    cases h
  · rfl

/-- **A year is read back**, whatever its sign and however many digits it has. -/
theorem signedYear_yearText (year : Int) (rest : List Char) :
    signedYear (yearText year ++ '-' :: rest) = some (year, '-' :: rest) := by
  have hsigned : ∀ n, number 1 (padded 4 n ++ '-' :: rest).length (padded 4 n ++ '-' :: rest) =
      some (n, '-' :: rest) := by
    refine fun n => number_padded (by decide) (by simp) (.inr ?_)
    rintro c ⟨⟩
    rfl
  rw [yearText]
  split
  · rw [List.cons_append, signedYear_minus, hsigned, Option.map_some]
    exact congrArg (fun y => some (y, '-' :: rest)) (by omega)
  · split
    · rw [List.cons_append, signedYear_plus, hsigned, Option.map_some]
      exact congrArg (fun y => some (y, '-' :: rest)) (by omega)
    · have hlength : (padded 4 year.natAbs).length = 4 := length_padded (by decide) (by omega)
      obtain ⟨c, more, heq, hc⟩ := exists_padded_eq_cons (Nat.succ_pos 3) year.natAbs
      rw [heq, List.cons_append, signedYear_digit hc, ← List.cons_append, ← heq,
        number_padded (by decide) (Nat.le_of_eq hlength) (.inl hlength), Option.map_some]
      exact congrArg (fun y => some (y, '-' :: rest)) (by omega)

theorem fraction_point {ds rest : List Char} (hdigits : ∀ c ∈ ds, c.isDigit) (hne : ds ≠ [])
    (hrest : ∀ c ∈ rest.head?, c.isDigit = false) : fraction ('.' :: (ds ++ rest)) =
      some (Text.digitsValue ((ds ++ List.replicate 9 '0').take 9), rest) := by
  rw [fraction]
  dsimp only
  rw [Text.takeWhile_append_of_head? hdigits hrest, Text.dropWhile_append_of_head? hdigits hrest,
    if_neg (by simpa using hne)]

/-- A fraction of some digits counts as many zeros as it lacks, and any zeros that follow are among them or
count for nothing. -/
theorem fraction_padded_zeros {width n : Nat} (zeros : Nat) {rest : List Char} (hwidth : 0 < width)
    (hle : width ≤ 9) (hn : n < 10 ^ width) (hrest : ∀ c ∈ rest.head?, c.isDigit = false) :
    fraction ('.' :: (padded width n ++ List.replicate zeros '0' ++ rest)) =
      some (10 ^ (9 - width) * n, rest) := by
  have hlength := length_padded hwidth hn
  have hne : padded width n ++ List.replicate zeros '0' ≠ [] := by
    intro heq
    rw [(List.append_eq_nil_iff.1 heq).1] at hlength
    exact absurd hlength.symm (Nat.ne_of_gt hwidth)
  have hdigits : ∀ c ∈ padded width n ++ List.replicate zeros '0', c.isDigit := by
    intro c hc
    rcases List.mem_append.1 hc with hc | hc
    · exact isDigit_of_mem_padded hc
    · exact List.eq_of_mem_replicate hc ▸ rfl
  have htake : (padded width n ++ List.replicate zeros '0' ++ List.replicate 9 '0').take 9 =
      padded width n ++ List.replicate (9 - width) '0' := by
    rw [List.append_assoc, List.replicate_append_replicate, List.take_append, hlength,
      List.take_of_length_le (by omega), List.take_replicate, Nat.min_eq_left (by omega)]
  rw [fraction_point hdigits hne hrest, htake, Text.digitsValue, Nat.ofDigitChars_append,
    Nat.ofDigitChars_replicate_zero]
  exact congrArg (fun n => some (10 ^ (9 - width) * n, rest)) (digitsValue_padded width n)

theorem fraction_padded {width n : Nat} {rest : List Char} (hwidth : 0 < width) (hle : width ≤ 9)
    (hn : n < 10 ^ width) (hrest : ∀ c ∈ rest.head?, c.isDigit = false) :
    fraction ('.' :: (padded width n ++ rest)) = some (10 ^ (9 - width) * n, rest) := by
  rw [← fraction_padded_zeros 0 hwidth hle hn hrest, List.replicate_zero, List.append_nil]

theorem fraction_of_ne_point {rest : List Char} (hrest : ∀ c ∈ rest.head?, c ≠ '.') :
    fraction rest = some (0, rest) := by
  rw [fraction]
  rintro ds rfl
  exact hrest '.' rfl rfl

/-- **A fraction is read back**, of three, six or nine digits. -/
theorem fraction_fractionText {nano : Nat} (h : nano < nanosPerSecond) {rest : List Char}
    (hrest : ∀ c ∈ rest.head?, c.isDigit = false) (hpoint : ∀ c ∈ rest.head?, c ≠ '.') :
    fraction (fractionText nano ++ rest) = some (nano, rest) := by
  rw [nanosPerSecond] at h
  rw [fractionText]
  split
  · rename_i hzero
    rw [hzero]
    exact fraction_of_ne_point hpoint
  · split
    · rw [List.cons_append, fraction_padded (by decide) (by decide) (by omega) hrest,
        show 10 ^ (9 - 3) * (nano / 1000000) = nano by omega]
    · split
      · rw [List.cons_append, fraction_padded (by decide) (by decide) (by omega) hrest,
          show 10 ^ (9 - 6) * (nano / 1000) = nano by omega]
      · rw [List.cons_append, fraction_padded (by decide) (by decide) (by omega) hrest,
          show 10 ^ (9 - 9) * nano = nano by omega]

/-! ## Instants -/

/-- The month and the day of a date in the calendar have two digits. -/
theorem Date.lt_of_isValid {d : Date} (h : d.isValid) : d.month < 100 ∧ d.dayOfMonth < 100 := by
  have hlengths : ∀ length ∈ monthLengths d.year, length ≤ 31 := by
    rw [monthLengths]
    cases isLeapYear d.year <;> decide
  simp only [isValid, Bool.and_eq_true, decide_eq_true_eq, List.getD_eq_getElem?_getD] at h
  refine ⟨by omega, ?_⟩
  cases heq : (monthLengths d.year)[d.month - 1]? with
  | none =>
    rw [heq, Option.getD_none] at h
    omega
  | some length =>
    rw [heq, Option.getD_some] at h
    have := hlengths length (List.mem_of_getElem? heq)
    omega

/-- Whether the year of a date is written with four digits and no sign. -/
def Date.HasPlainYear (d : Date) : Prop := 0 ≤ d.year ∧ d.year ≤ 9999

instance (d : Date) : Decidable d.HasPlainYear := inferInstanceAs (Decidable (_ ∧ _))

theorem Date.HasPlainYear.yearText_eq {d : Date} (h : d.HasPlainYear) :
    yearText d.year = padded 4 d.year.natAbs := by
  rw [yearText, if_neg (Int.not_lt.2 h.1), if_neg (Int.not_lt.2 h.2)]

theorem Date.HasPlainYear.natAbs_lt {d : Date} (h : d.HasPlainYear) : d.year.natAbs < 10000 := by
  obtain ⟨hlow, hhigh⟩ := h
  omega

/-- An offset is some minutes, less than a day. -/
theorem Offset.seconds_spec (o : Offset) : o.seconds % 60 = 0 ∧ o.seconds.natAbs < 86400 := by
  have hhours := o.hours_le
  have hminutes := o.minutes_le
  rw [seconds]
  split <;> omega

namespace Instant

/-- The date of an instant at an offset. -/
def localDate (t : Instant) (o : Offset) : Date := Date.ofDay ((t.second + o.seconds) / 86400)

/-- The time of day of an instant at an offset. -/
def localClock (t : Instant) (o : Offset) : Clock where
  hour := ((t.second + o.seconds) % 86400).toNat / 3600
  minute := ((t.second + o.seconds) % 86400).toNat / 60 % 60
  second := ((t.second + o.seconds) % 86400).toNat % 60 + t.nano / nanosPerSecond
  nano := t.nano % nanosPerSecond

/-- The date of an instant in universal time. -/
def date (t : Instant) : Date := Date.ofDay (t.second / 86400)

/-- The time of day of an instant in universal time. -/
def clock (t : Instant) : Clock where
  hour := (t.second % 86400).toNat / 3600
  minute := (t.second % 86400).toNat / 60 % 60
  second := (t.second % 86400).toNat % 60 + t.nano / nanosPerSecond
  nano := t.nano % nanosPerSecond

theorem local_zero (t : Instant) : t.localDate .zero = t.date ∧ t.localClock .zero = t.clock := by
  have hzero : t.second + Offset.zero.seconds = t.second := Int.add_zero _
  constructor
  · rw [localDate, hzero, date]
  · rw [localClock, hzero, clock]

theorem of?_eq_some (t : Instant) : of? t.second t.nano = some t :=
  dif_pos ⟨t.nano_lt, t.leap, t.inRange⟩

/-- The day of an instant begins at an instant. -/
theorem isSome_ofDate? (t : Instant) : (ofDate? t.date).isSome := by
  obtain ⟨hfirst, hlast⟩ := t.inRange
  rw [firstSecond] at hfirst
  rw [ofDate?, date, Date.day_ofDay, of?, dif_pos]
  · rfl
  · rw [nanosPerSecond, firstSecond]
    omega

/-- **Date and time of day at an offset, taken apart, are put together again**, leap seconds included. -/
theorem ofLocal?_local (t : Instant) (o : Offset) (hstart : (ofDate? (t.localDate o)).isSome) :
    ofLocal? (t.localDate o) (t.localClock o) o.seconds = some t := by
  have hnano := t.nano_lt
  have hleap := t.leap
  obtain ⟨hminutes, hday⟩ := o.seconds_spec
  have hvalid : (t.localDate o).isValid := Date.isValid_ofDay _
  have hhour : (t.localClock o).hour = ((t.second + o.seconds) % 86400).toNat / 3600 := rfl
  have hminute : (t.localClock o).minute = ((t.second + o.seconds) % 86400).toNat / 60 % 60 := rfl
  have hsecond : (t.localClock o).second =
      ((t.second + o.seconds) % 86400).toNat % 60 + t.nano / nanosPerSecond := rfl
  have hrest : (t.localClock o).nano = t.nano % nanosPerSecond := rfl
  rw [nanosPerSecond] at hnano hleap hsecond hrest
  rw [ofLocal?, if_pos ⟨hvalid, by omega, by omega, by omega, hday⟩]
  dsimp only
  rw [if_pos hstart, localDate, Date.day_ofDay, ← of?_eq_some t, nanosPerSecond]
  congr 1
  · omega
  · split <;> omega

theorem ofLocal?_parts (t : Instant) : ofLocal? t.date t.clock 0 = some t := by
  obtain ⟨hdate, hclock⟩ := t.local_zero
  rw [← hdate, ← hclock]
  exact t.ofLocal?_local .zero (hdate ▸ t.isSome_ofDate?)

/-- The parts of a local date and time of day have two digits each, but for the year. -/
theorem local_parts_lt (t : Instant) (o : Offset) :
    (t.localDate o).month < 100 ∧ (t.localDate o).dayOfMonth < 100 ∧ (t.localClock o).hour < 100 ∧
      (t.localClock o).minute < 100 ∧ (t.localClock o).second < 100 := by
  have hnano := t.nano_lt
  obtain ⟨hmonth, hday⟩ := Date.lt_of_isValid (Date.isValid_ofDay ((t.second + o.seconds) / 86400))
  rw [nanosPerSecond] at hnano
  refine ⟨hmonth, hday, ?_⟩
  simp only [localClock, nanosPerSecond]
  omega

theorem parts_lt (t : Instant) : t.date.month < 100 ∧ t.date.dayOfMonth < 100 ∧ t.clock.hour < 100 ∧
    t.clock.minute < 100 ∧ t.clock.second < 100 := by
  have hlt := t.local_parts_lt .zero
  rwa [t.local_zero.1, t.local_zero.2] at hlt

/-- Date and time of day of an instant at an offset, part by part. -/
theorem secondText_append (t : Instant) (o : Offset) (rest : List Char) : t.secondText o ++ rest =
    yearText (t.localDate o).year ++ '-' :: (padded 2 (t.localDate o).month ++
      '-' :: (padded 2 (t.localDate o).dayOfMonth ++ 'T' :: (padded 2 (t.localClock o).hour ++
        ':' :: (padded 2 (t.localClock o).minute ++ ':' :: (padded 2 (t.localClock o).second ++
          rest))))) := by
  simp only [secondText, Date.text, localDate, localClock, List.append_assoc, List.cons_append]

/-- The text of an instant in universal time, part by part. -/
theorem universalText_append (t : Instant) (rest : List Char) : t.universalText ++ rest =
    yearText t.date.year ++ '-' :: (padded 2 t.date.month ++ '-' :: (padded 2 t.date.dayOfMonth ++
      'T' :: (padded 2 t.clock.hour ++ ':' :: (padded 2 t.clock.minute ++
        ':' :: (padded 2 t.clock.second ++ (fractionText t.clock.nano ++ rest)))))) := by
  rw [universalText, List.append_assoc, secondText_append, t.local_zero.1, t.local_zero.2]
  rfl

theorem separator_T (rest : List Char) : separator ('T' :: rest) = some ((), rest) := rfl

/-- Reading goes on with what was found. -/
theorem bind_of_eq_some {α β : Type} {x : Option α} {a : α} {f : α → Option β} (h : x = some a) :
    (x >>= f) = f a := by
  rw [h]
  rfl

/-- **What is written for a request is read back.** -/
theorem ofWire?_wireText (t : Instant) : ofWire? t.wireText = some t := by
  obtain ⟨hmonth, hday, hhour, hminute, hsecond⟩ := t.parts_lt
  have hnano : t.clock.nano < nanosPerSecond := Nat.mod_lt _ (by decide)
  have hfraction : fraction (fractionText t.clock.nano ++ ['Z']) = some (t.clock.nano, ['Z']) :=
    fraction_fractionText hnano (by rintro c ⟨⟩; rfl) (by rintro c ⟨⟩; decide)
  have hdash : Text.isBlank '-' = false := rfl
  have hcolon : Text.isBlank ':' = false := rfl
  have hoffset : looseOffset (Text.trimStart ['Z']) = some (0, []) := rfl
  rw [ofWire?, wireText, String.toList_ofList, universalText_append]
  refine (bind_of_eq_some (signedYear_yearText _ _)).trans ?_
  refine (bind_of_eq_some (spacedLiteral_cons hdash _)).trans ?_
  refine (bind_of_eq_some (part_padded hmonth _)).trans ?_
  refine (bind_of_eq_some (spacedLiteral_cons hdash _)).trans ?_
  refine (bind_of_eq_some (part_padded hday _)).trans ?_
  refine (bind_of_eq_some (separator_T _)).trans ?_
  refine (bind_of_eq_some (part_padded hhour _)).trans ?_
  refine (bind_of_eq_some (spacedLiteral_cons hcolon _)).trans ?_
  refine (bind_of_eq_some (part_padded hminute _)).trans ?_
  refine (bind_of_eq_some (spacedLiteral_cons hcolon _)).trans ?_
  refine (bind_of_eq_some (part_padded hsecond _)).trans ?_
  refine (bind_of_eq_some hfraction).trans ?_
  refine (bind_of_eq_some hoffset).trans ?_
  exact t.ofLocal?_parts

/-- **No two instants have one text.** -/
theorem text_injective {t u : Instant} (h : t.text = u.text) : t = u := by
  have huniversal : t.universalText = u.universalText :=
    List.append_cancel_right (String.ofList_injective h)
  have hwire : t.wireText = u.wireText := by rw [wireText, huniversal, wireText]
  have hread := congrArg ofWire? hwire
  rw [ofWire?_wireText, ofWire?_wireText] at hread
  exact Option.some.inj hread

/-! ## Records -/

/-- Whether the year of an instant is written with four digits and no sign. -/
def HasPlainYear (t : Instant) : Prop := 0 ≤ t.date.year ∧ t.date.year ≤ 9999

instance (t : Instant) : Decidable t.HasPlainYear := inferInstanceAs (Decidable (_ ∧ _))

theorem exists_sign_of_not_hasPlainYear {t : Instant} (h : ¬ t.HasPlainYear) :
    ∃ sign, sign.isDigit = false ∧ yearText t.date.year = sign :: padded 4 t.date.year.natAbs := by
  rw [yearText]
  split
  · exact ⟨'-', rfl, rfl⟩
  · split
    · exact ⟨'+', rfl, rfl⟩
    · exact absurd ⟨by omega, by omega⟩ h

theorem number_padded_self {width n : Nat} (hwidth : 0 < width) (h : n < 10 ^ width)
    (rest : List Char) : number width width (padded width n ++ rest) = some (n, rest) :=
  number_padded (Nat.le_refl _) (Nat.le_of_eq (length_padded hwidth h)) (.inl (length_padded hwidth h))

/-- **A timestamp at an offset is read back if its local year has four digits**, whichever way its fraction
and its offset are written. -/
theorem ofTimestamp?_secondText {t : Instant} {o : Offset} {rest offsetText : List Char}
    (h : (t.localDate o).HasPlainYear) (hstart : (ofDate? (t.localDate o)).isSome)
    (hfraction : fraction rest = some (t.nano % nanosPerSecond, offsetText))
    (hoffset : offset (literal ':') offsetText = some (o.seconds, [])) :
    ofTimestamp? (t.secondText o ++ rest) = some t := by
  obtain ⟨hmonth, hday, hhour, hminute, hsecond⟩ := t.local_parts_lt o
  have hdate : (⟨((t.localDate o).year.natAbs : Int), (t.localDate o).month,
      (t.localDate o).dayOfMonth⟩ : Date) = t.localDate o := by
    rw [Int.natAbs_of_nonneg h.1]
  rw [ofTimestamp?, secondText_append, h.yearText_eq]
  refine (bind_of_eq_some (number_padded_self (by decide) h.natAbs_lt _)).trans ?_
  refine (bind_of_eq_some (Text.literal_cons _ _)).trans ?_
  refine (bind_of_eq_some (number_padded_self (by decide) hmonth _)).trans ?_
  refine (bind_of_eq_some (Text.literal_cons _ _)).trans ?_
  refine (bind_of_eq_some (number_padded_self (by decide) hday _)).trans ?_
  refine (bind_of_eq_some (separator_T _)).trans ?_
  refine (bind_of_eq_some (number_padded_self (by decide) hhour _)).trans ?_
  refine (bind_of_eq_some (Text.literal_cons _ _)).trans ?_
  refine (bind_of_eq_some (number_padded_self (by decide) hminute _)).trans ?_
  refine (bind_of_eq_some (Text.literal_cons _ _)).trans ?_
  refine (bind_of_eq_some (number_padded_self (by decide) hsecond _)).trans ?_
  refine (bind_of_eq_some hfraction).trans ?_
  refine (bind_of_eq_some hoffset).trans ?_
  change ofLocal? ⟨(t.localDate o).year.natAbs, (t.localDate o).month, (t.localDate o).dayOfMonth⟩
    (t.localClock o) o.seconds = some t
  rw [hdate]
  exact t.ofLocal?_local o hstart

/-- **A timestamp of a result row is read back if its year has four digits.** -/
theorem ofTimestamp?_text {t : Instant} (h : t.HasPlainYear) :
    ofTimestamp? t.text.toList = some t := by
  have hnano : t.nano % nanosPerSecond < nanosPerSecond := Nat.mod_lt _ (by decide)
  have hdate := t.local_zero.1
  rw [text, String.toList_ofList, universalText, List.append_assoc]
  exact ofTimestamp?_secondText (hdate ▸ h) (hdate ▸ t.isSome_ofDate?)
    (fraction_fractionText hnano (by rintro c ⟨⟩; rfl) (by rintro c ⟨⟩; decide)) (by decide)

/-- A timestamp does not begin with a sign. -/
theorem ofTimestamp?_text_eq_none {t : Instant} (h : ¬ t.HasPlainYear) :
    ofTimestamp? t.text.toList = none := by
  obtain ⟨sign, hsign, hyear⟩ := exists_sign_of_not_hasPlainYear h
  have hnumber (rest : List Char) : number 4 4 (sign :: rest) = none := by
    rw [number, List.take_succ_cons, List.takeWhile_cons, hsign]
    rfl
  rw [ofTimestamp?, text, String.toList_ofList, universalText_append, hyear, List.cons_append,
    hnumber]
  rfl

/-- A bare date ends with its day. -/
theorem ofText?_text (t : Instant) : Date.ofText? t.text.toList = none := by
  obtain ⟨hmonth, hday, -⟩ := t.parts_lt
  rw [Date.ofText?, text, String.toList_ofList, universalText_append]
  refine (bind_of_eq_some (signedYear_yearText _ _)).trans ?_
  refine (bind_of_eq_some (Text.literal_cons _ _)).trans ?_
  refine (bind_of_eq_some (part_padded hmonth _)).trans ?_
  refine (bind_of_eq_some (Text.literal_cons _ _)).trans ?_
  refine (bind_of_eq_some (part_padded hday _)).trans ?_
  exact if_neg fun h => nomatch h.1

/-- **The text of a result row is read back exactly if the year has four digits and no sign.** -/
theorem ofRecord?_text (t : Instant) :
    ofRecord? t.text = if t.HasPlainYear then some t else none := by
  split
  · rename_i h
    rw [ofRecord?, ofTimestamp?_text h]
  · rename_i h
    rw [ofRecord?, ofTimestamp?_text_eq_none h, ofText?_text]
    rfl

end Instant

end Reporting.Time
