import Reporting.Double.Shortest

/-!
# Double/Layout — doubles as text

A finite double is written with its shortest digits.  A `Layout` says where the decimal point goes
and how the values outside the real line are spelt; `Layout.exchange` is the form numbers have in
JSON documents, `Layout.plain` the one they have in messages.
-/

namespace Reporting.Double

/-- How doubles are written. -/
structure Layout where
  /-- Which of two equally near decimals is taken. -/
  tie : Tie
  /-- Whether a number whose decimal point stands at this place, counted from the left end of its
  digits, is written without an exponent. -/
  positional : Int → Bool
  /-- What follows a number that has no fraction. -/
  whole : String
  /-- What stands for a value that is not a number. -/
  notANumber : String
  /-- What stands for infinity. -/
  infinity : String
  /-- What stands for negative infinity. -/
  negativeInfinity : String

/-- The digits of a number in base ten. -/
def decimalDigits (n : Nat) : List Char := Nat.toDigits 10 n

/-- Digits with the decimal point at the given place. -/
def Layout.positionalText (l : Layout) (digits : List Char) (point : Int) : List Char :=
  if point ≤ 0 then '0' :: '.' :: List.replicate (-point).toNat '0' ++ digits
  else if digits.length ≤ point.toNat then
    digits ++ List.replicate (point.toNat - digits.length) '0' ++ l.whole.toList
  else digits.take point.toNat ++ '.' :: digits.drop point.toNat

/-- One digit, the others as a fraction, and the exponent with its sign. -/
def scientificText (digits : List Char) (point : Int) : List Char :=
  let exponent := point - 1
  let fraction := digits.drop 1
  digits.take 1 ++ (if fraction.isEmpty then [] else '.' :: fraction) ++
    'e' :: (if exponent < 0 then '-' else '+') :: decimalDigits exponent.natAbs

/-- A decimal that is not negative. -/
def Layout.decimal (l : Layout) (d : Decimal) : List Char :=
  if d.digits = 0 then '0' :: l.whole.toList
  else
    let digits := decimalDigits d.digits
    let point := digits.length + d.exponent
    if l.positional point then l.positionalText digits point else scientificText digits point

/-- A double as text. -/
def Layout.text (l : Layout) (x : Float) : List Char :=
  if isFinite x then
    let text := l.decimal (shortest l.tie (magnitude x))
    if isNegative x then '-' :: text else text
  else if infinityBits < magnitude x then l.notANumber.toList
  else if isNegative x then l.negativeInfinity.toList
  else l.infinity.toList

/-- Numbers in JSON documents: always with a fraction or an exponent, positional while the decimal
point stands within sixteen digits or behind at most four zeros.  JSON has no word for the values
outside the real line, so they become `null`. -/
def Layout.exchange : Layout where
  tie := .even
  positional point := -5 < point && point ≤ 16
  whole := ".0"
  notANumber := "null"
  infinity := "null"
  negativeInfinity := "null"

/-- Numbers in messages: never with an exponent, and without a fraction that is zero. -/
def Layout.plain : Layout where
  tie := .up
  positional _ := true
  whole := ""
  notANumber := "NaN"
  infinity := "inf"
  negativeInfinity := "-inf"

end Reporting.Double
