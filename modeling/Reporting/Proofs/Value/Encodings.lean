import Reporting.Proofs.Time.RoundTrip
import Reporting.Proofs.Value.Cell

/-!
# Proofs/Value/Encodings — the ways in which a record writes a date

A record writes an instant as milliseconds, as a timestamp at some offset, or as a bare date if a day
begins with it.  Each way has a reader of its own, and they all find the same instant
(`Value.encodings_agree`): a timestamp is taken apart by the local calendar, across whatever ends of days,
months and years its offset leads, and put together again by subtracting that offset.
-/

namespace Reporting

namespace Time

open Text (literal number)

-- Powers are those of natural numbers, whatever else has powers.
attribute [local instance (high)] instPowNat

/-! ## Days and years -/

/-- The days whose years have four digits. -/
theorem Date.HasPlainYear.bounds {day : Int} (h : (ofDay day).HasPlainYear) :
    -719528 ≤ day ∧ day ≤ 2932896 := by
  have hyear : (ofDay day).year = yearOfDay (day + epochDay) := rfl
  obtain ⟨hlow, hhigh⟩ := h
  obtain ⟨hbefore, hafter⟩ := daysBeforeYear_yearOfDay (day + epochDay)
  rw [hyear] at hlow hhigh
  simp only [daysBeforeYear, epochDay] at hbefore hafter hlow hhigh
  omega

/-- All that happens in years of four digits happens at instants, whatever the offset. -/
theorem inRange_of_lt {second : Int} (hlow : -62167305600 ≤ second) (hhigh : second < 253402387200) :
    firstSecond ≤ second ∧ second ≤ lastSecond := by
  have hfirst : firstSecond ≤ -62167305600 := by decide
  have hlast : 253402387200 ≤ lastSecond := by decide
  omega

/-- The day of a date whose year has four digits begins at an instant. -/
theorem Instant.isSome_ofDate?_of_hasPlainYear {day : Int} (h : (Date.ofDay day).HasPlainYear) :
    (ofDate? (Date.ofDay day)).isSome := by
  have hbounds := h.bounds
  rw [ofDate?, Date.day_ofDay, of?, dif_pos]
  · rfl
  · exact ⟨by decide, fun hleap => absurd hleap (by decide), inRange_of_lt (by omega) (by omega)⟩

/-! ## Timestamps -/

/-- **An offset is read back.** -/
theorem offset_text (o : Offset) : offset (literal ':') o.text = some (o.seconds, []) := by
  have hhours : number 2 2 (padded 2 o.hours ++ ':' :: padded 2 o.minutes) =
      some (o.hours, ':' :: padded 2 o.minutes) :=
    Instant.number_padded_self (by decide) (Nat.lt_of_le_of_lt o.hours_le (by decide)) _
  have hminutes : number 2 2 (padded 2 o.minutes ++ []) = some (o.minutes, []) :=
    Instant.number_padded_self (by decide) (Nat.lt_of_le_of_lt o.minutes_le (by decide)) _
  rw [List.append_nil] at hminutes
  rw [Offset.text, Offset.seconds, List.cons_append]
  cases o.minus
  all_goals
    rw [offset, if_neg (by decide)]
    refine (Instant.bind_of_eq_some rfl).trans ?_
    refine (Instant.bind_of_eq_some hhours).trans ?_
    refine (Instant.bind_of_eq_some (Text.literal_cons _ _)).trans ?_
    refine (Instant.bind_of_eq_some hminutes).trans ?_
    refine (if_pos o.minutes_le).trans ?_
    simp

namespace Instant

/-- **A timestamp is read back at whatever offset it is written**, if the local year has four digits and
nothing is smaller than its milliseconds. -/
theorem ofTimestamp?_timestamp {t : Instant} {o : Offset} (h : (t.localDate o).HasPlainYear)
    (hwhole : t.nano % 1000000 = 0) (zeros : Nat) :
    ofTimestamp? (t.timestamp o zeros).toList = some t := by
  have hnano : t.nano % nanosPerSecond / 1000000 < 10 ^ 3 := by
    rw [nanosPerSecond]
    omega
  have hfraction : fraction ('.' :: (padded 3 (t.nano % nanosPerSecond / 1000000) ++
      List.replicate zeros '0' ++ o.text)) = some (t.nano % nanosPerSecond, o.text) := by
    rw [fraction_padded_zeros zeros (by decide) (by decide) hnano ?_]
    · congr 2
      rw [nanosPerSecond]
      omega
    · rw [Offset.text]
      cases o.minus <;> rintro c ⟨⟩ <;> rfl
  rw [timestamp, String.toList_ofList, List.append_assoc, List.append_assoc, List.cons_append,
    ← List.append_assoc (padded 3 _)]
  exact ofTimestamp?_secondText h (isSome_ofDate?_of_hasPlainYear h) hfraction (offset_text o)

/-! ## Bare dates -/

/-- A date, part by part. -/
theorem dateText_eq (d : Date) : d.text = yearText d.year ++
    '-' :: (padded 2 d.month ++ '-' :: (padded 2 d.dayOfMonth ++ [])) := by
  rw [Date.text, List.append_assoc, List.cons_append, List.append_nil]

/-- A date without a time of day is no timestamp. -/
theorem ofTimestamp?_dateText {day : Int} (h : (Date.ofDay day).HasPlainYear) :
    ofTimestamp? (Date.ofDay day).text = none := by
  obtain ⟨hmonth, hdayOfMonth⟩ := Date.lt_of_isValid (Date.isValid_ofDay day)
  rw [ofTimestamp?, dateText_eq, h.yearText_eq]
  refine (bind_of_eq_some (number_padded_self (by decide) h.natAbs_lt _)).trans ?_
  refine (bind_of_eq_some (Text.literal_cons _ _)).trans ?_
  refine (bind_of_eq_some (number_padded_self (by decide) hmonth _)).trans ?_
  refine (bind_of_eq_some (Text.literal_cons _ _)).trans ?_
  -- The text ends where a separator would have to come.
  exact bind_of_eq_some (number_padded_self (by decide) hdayOfMonth [])

/-- **A bare date is read as the start of its day.** -/
theorem ofRecord?_dateText {day : Int} (h : (Date.ofDay day).HasPlainYear) :
    ofRecord? (String.ofList (Date.ofDay day).text) = ofDate? (Date.ofDay day) := by
  obtain ⟨hmonth, hdayOfMonth⟩ := Date.lt_of_isValid (Date.isValid_ofDay day)
  have hread : Date.ofText? (Date.ofDay day).text = some (Date.ofDay day) := by
    rw [Date.ofText?, dateText_eq]
    refine (bind_of_eq_some (signedYear_yearText _ _)).trans ?_
    refine (bind_of_eq_some (Text.literal_cons _ _)).trans ?_
    refine (bind_of_eq_some (part_padded hmonth _)).trans ?_
    refine (bind_of_eq_some (Text.literal_cons _ _)).trans ?_
    refine (bind_of_eq_some (part_padded hdayOfMonth [])).trans ?_
    exact if_pos ⟨rfl, Date.isValid_ofDay day⟩
  rw [ofRecord?, String.toList_ofList, ofTimestamp?_dateText h, hread]
  rfl

/-! ## Milliseconds -/

/-- The instant that a number of milliseconds is. -/
theorem parts_of_ofMillis? {n : Int} {t : Instant} (h : ofMillis? n = some t) :
    t.second = n / 1000 ∧ t.nano = (n % 1000).toNat * 1000000 := by
  rw [ofMillis?, of?] at h
  split at h
  · cases h
    exact ⟨rfl, rfl⟩
  · cases h

/-- The date, at an offset, of a number of milliseconds. -/
def localDateOf (n : Int) (o : Offset) : Date := Date.ofDay ((n / 1000 + o.seconds) / 86400)

/-- Milliseconds are an instant if the year is one of four digits anywhere. -/
theorem exists_ofMillis? {n : Int} {o : Offset} (h : (localDateOf n o).HasPlainYear) :
    ∃ t, ofMillis? n = some t := by
  have hbounds := h.bounds
  have hoffset := o.seconds_spec.2
  have hnano : (n % 1000).toNat * 1000000 < nanosPerSecond := by
    rw [nanosPerSecond]
    omega
  rw [ofMillis?, of?, dif_pos]
  · exact ⟨_, rfl⟩
  · exact ⟨by omega, by omega, inRange_of_lt (by omega) (by omega)⟩

end Instant

end Time

namespace Value

open Time (Date Instant Offset)

/-! ## Dates -/

/-- Milliseconds that are an instant are read as that instant: 64 bits hold them. -/
theorem ofCell_millis {n : Int} {t : Instant} (h : Instant.ofMillis? n = some t) :
    ofCell .date (.ofInt n) = .ok (some (date t)) := by
  obtain ⟨hfirst, hlast⟩ := t.inRange
  rw [(Instant.parts_of_ofMillis? h).1] at hfirst hlast
  have hlow : -9000000000000 ≤ Time.firstSecond := by decide
  have hhigh : Time.lastSecond ≤ 9000000000000 := by decide
  have hsize : n < (UInt64.size / 2 : Nat) := by
    rw [UInt64.size]
    omega
  have hfits : Json.Number.Fits n := by
    rw [Json.Number.Fits, UInt64.size]
    omega
  rw [ofCell_eq_some_iff, Json.ofInt, dif_pos hfits, ofCell?, if_pos hsize, h]
  rfl

/-- A text that is an instant is read as that instant. -/
theorem ofCell_text {s : String} {t : Instant} (h : Instant.ofRecord? s = some t) :
    ofCell .date (.string s) = .ok (some (date t)) := by
  rw [ofCell_eq_some_iff, ofCell?, h]
  rfl

/-- **All ways to write an instant are read alike.**  Take a number of milliseconds, and an offset at which
its year has four digits.  There is one instant that is read from the number, from its timestamp at that
offset, however many zeros follow the milliseconds, and, if a day of a year of four digits begins with it,
from the bare date of that day. -/
theorem encodings_agree {n : Int} {o : Offset} (h : (Instant.localDateOf n o).HasPlainYear)
    (zeros : Nat) : ∃ t, Instant.ofMillis? n = some t ∧
      ofCell .date (.ofInt n) = .ok (some (date t)) ∧
      ofCell .date (.string (t.timestamp o zeros)) = .ok (some (date t)) ∧
      (n % 86400000 = 0 → (Instant.localDateOf n .zero).HasPlainYear →
        ofCell .date (.string (String.ofList (Instant.localDateOf n .zero).text)) =
          .ok (some (date t))) := by
  obtain ⟨t, ht⟩ := Instant.exists_ofMillis? h
  obtain ⟨hsecond, hnano⟩ := Instant.parts_of_ofMillis? ht
  refine ⟨t, ht, ofCell_millis ht, ofCell_text ?_, fun hmidnight hplain => ofCell_text ?_⟩
  · have hlocal : t.localDate o = Instant.localDateOf n o := by
      rw [Instant.localDate, hsecond, Instant.localDateOf]
    have hwhole : t.nano % 1000000 = 0 := hnano ▸ Nat.mul_mod_left _ _
    rw [Instant.ofRecord?, Instant.ofTimestamp?_timestamp (hlocal ▸ h) hwhole zeros]
  · have hday : (n / 1000 + Offset.zero.seconds) / 86400 * 86400 = n / 1000 := by
      rw [show Offset.zero.seconds = 0 from rfl]
      omega
    have hstart : (n % 1000).toNat * 1000000 = 0 := by omega
    rw [Instant.localDateOf] at hplain ⊢
    rw [Instant.ofRecord?_dateText hplain, Instant.ofDate?, Date.day_ofDay, hday, ← ht,
      Instant.ofMillis?, hstart]

/-- The first of March 2024 begins while it is still the last of February five and a half hours further
west. -/
theorem encodings_agree_leapDay : ∃ t, ofCell .date (.ofInt 1709251200000) = .ok (some (date t)) ∧
    ofCell .date (.string "2024-02-29T18:30:00.00000-05:30") = .ok (some (date t)) ∧
    ofCell .date (.string "2024-03-01") = .ok (some (date t)) := by
  obtain ⟨t, ht, hmillis, htimestamp, hdate⟩ :=
    encodings_agree (n := 1709251200000) (o := ⟨true, 5, 30, by decide, by decide⟩) (by decide) 2
  have hstamp : t.timestamp ⟨true, 5, 30, by decide, by decide⟩ 2 = "2024-02-29T18:30:00.00000-05:30" := by
    cases ht
    decide
  exact ⟨t, hmillis, hstamp ▸ htimestamp, hdate rfl (by decide)⟩

end Value

end Reporting
