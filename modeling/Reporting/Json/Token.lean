import Reporting.Double.Reading
import Reporting.Json.Basic
import Reporting.Text.Digits
import Reporting.Text.Utf8

/-!
# Json/Token — JSON text as tokens

The scanner cuts a text into punctuation, words, numbers and strings.  It never fails: where the
text stops being JSON it puts a last token that says so, and whether the text is wrong there or
only ends too early.

A value can be read or passed over, and the two differ.  Passing over only asks for the form of a
token, so a string with half a surrogate pair or a number beyond the range of doubles, which names
no value, can still be passed over (`Token.unfit`).
-/

namespace Reporting.Json

/-- How a text fails to be JSON. -/
inductive Flaw
  /-- Something stands where JSON does not allow it. -/
  | malformed
  /-- The text ends where more has to follow. -/
  | truncated
  deriving DecidableEq, Repr

/-- What is said about a flaw. -/
def Flaw.message : Flaw → String
  | malformed => "the text is not JSON"
  | truncated => "the text ends too early"

/-- Punctuation. -/
inductive Mark
  | openArray
  | closeArray
  | openObject
  | closeObject
  | colon
  | comma
  deriving DecidableEq, Repr

/-- A piece of JSON text. -/
inductive Token
  | mark (m : Mark)
  | null
  | bool (value : Bool)
  | number (value : Number)
  | string (value : String)
  /-- A string or a number of the right form that names no value. -/
  | unfit (quoted : Bool)
  /-- Where the text breaks: in a string or elsewhere, and how for one who reads and for one who
  passes over.  Nothing follows it. -/
  | broken (quoted : Bool) (read skip : Flaw)

/-- The white space of JSON. -/
def isSpace (c : Char) : Bool := c == ' ' || c == '\n' || c == '\t' || c == '\r'

/-! ## Strings -/

/-- The part of a string scanned so far: its characters in reverse, whether they make a text, and
the first half of a surrogate pair that waits for the other. -/
structure Scanned where
  reversed : List Char := []
  fit : Bool := true
  half : Option Nat := none

namespace Scanned

/-- A waiting half that gets no other half makes the string unfit. -/
def settle (s : Scanned) : Scanned :=
  match s.half with
  | none => s
  | some _ => { s with fit := false, half := none }

/-- Adds a character. -/
def push (s : Scanned) (c : Char) : Scanned :=
  let s := s.settle
  { s with reversed := c :: s.reversed }

/-- Adds a sixteen-bit unit given by a `\u` escape. -/
def unit (s : Scanned) (n : Nat) : Scanned :=
  let low := 0xDC00 ≤ n ∧ n ≤ 0xDFFF
  match s.half with
  | some high =>
    if low then
      let c := Char.ofNat (0x10000 + (high - 0xD800) * 0x400 + (n - 0xDC00))
      { s with reversed := c :: s.reversed, half := none }
    else { s with fit := false, half := none }
  | none =>
    if low then { s with fit := false }
    else if 0xD800 ≤ n ∧ n ≤ 0xDBFF then { s with half := some n }
    else s.push (Char.ofNat n)

/-- The token of a string that has ended. -/
def token (s : Scanned) : Token :=
  let s := s.settle
  if s.fit then .string (String.ofList s.reversed.reverse) else .unfit true

/-- The token of a string that breaks: who reads it stops where it became unfit. -/
def brokenBy (s : Scanned) (flaw : Flaw) : Token :=
  .broken true (if s.fit then flaw else .malformed) flaw

end Scanned

/-- The character that a backslash and a letter stand for. -/
def unescape? (c : Char) : Option Char :=
  if c = '"' ∨ c = '\\' ∨ c = '/' then some c
  else if c = 'b' then some '\x08'
  else if c = 'f' then some '\x0c'
  else if c = 'n' then some '\n'
  else if c = 'r' then some '\r'
  else if c = 't' then some '\t'
  else none

/-- The number that four hexadecimal digits stand for. -/
def hexUnit? (a b c d : Char) : Option Nat :=
  match Text.hexDigit? a, Text.hexDigit? b, Text.hexDigit? c, Text.hexDigit? d with
  | some a, some b, some c, some d => some (((a * 16 + b) * 16 + c) * 16 + d)
  | _, _, _, _ => none

/-- How an escape breaks that has no four digits: the text is at its end if it has not even four
bytes more. -/
def shortEscape (rest : List Char) : Flaw :=
  if Text.byteSize (rest.take 4) < 4 then .truncated else .malformed

/-- Scans a string after its opening quote, giving its token and what follows. -/
def scanString (s : Scanned) : List Char → Token × List Char
  | [] => (s.brokenBy .truncated, [])
  | c :: rest =>
    if c = '"' then (s.token, rest)
    else if c = '\\' then
      match rest with
      | [] => (s.brokenBy .truncated, [])
      | e :: rest =>
        if e = 'u' then
          match rest with
          | a :: b :: c :: d :: more =>
            match hexUnit? a b c d with
            | some n => scanString (s.unit n) more
            | none => (s.brokenBy .malformed, [])
          | short => (s.brokenBy (shortEscape short), [])
        else
          match unescape? e with
          | some c => scanString (s.push c) rest
          | none => (s.brokenBy .malformed, [])
    else if c.toNat < 32 then (s.brokenBy .malformed, [])
    else scanString (s.push c) rest

/-! ## Numbers -/

/-- The digits at the start of a text. -/
def digits (cs : List Char) : List Char := cs.takeWhile Char.isDigit

/-- A text after the digits at its start. -/
def afterDigits (cs : List Char) : List Char := cs.dropWhile Char.isDigit

/-- A decimal fraction as a number, rounded correctly.  The default reader of a JSON library may give a
double that is one unit in the last place off. -/
def Number.ofDecimal? (negative : Bool) (digits : Nat) (exponent : Int) : Option Number :=
  (Double.ofDecimal? negative digits exponent).pmap .float fun _ => Double.isFinite_of_ofDecimal?

theorem Number.fits_natCast {n : Nat} (h : n < UInt64.size) : Number.Fits n := by
  simp only [Number.Fits, UInt64.size] at h ⊢
  omega

theorem Number.fits_neg {n : Nat} (h : n ≤ UInt64.size / 2) : Number.Fits (-(n : Int)) := by
  simp only [Number.Fits, UInt64.size] at h ⊢
  omega

/-- An integer as a number: exact within 64 bits, the nearest double beyond.  Negative zero is a
double, there being no such integer. -/
def Number.ofInteger? (negative : Bool) (n : Nat) : Option Number :=
  if negative then
    if h : n ≠ 0 ∧ n ≤ UInt64.size / 2 then some (.int (-(n : Int)) (fits_neg h.2))
    else ofDecimal? true n 0
  else if h : n < UInt64.size then some (.int n (fits_natCast h))
  else ofDecimal? false n 0

/-- The token of a number, or of one that names no value. -/
def numberToken (n : Option Number) : Token :=
  match n with
  | some n => .number n
  | none => .unfit false

/-- How a number breaks before a text that should begin with a digit. -/
def brokenNumber (cs : List Char) : Token :=
  .broken false (if cs.isEmpty then .truncated else .malformed) .malformed

/-- Whether an exponent has a minus sign, and the text after its sign. -/
def exponentSign : List Char → Bool × List Char
  | [] => (false, [])
  | c :: rest => if c = '-' then (true, rest) else if c = '+' then (false, rest) else (false, c :: rest)

/-- Scans the digits of an exponent. -/
def scanExponentDigits (negative : Bool) (digitsSoFar : Nat) (places : Nat) (minus : Bool)
    (cs : List Char) : Token × List Char :=
  let ds := digits cs
  if ds.isEmpty then (brokenNumber cs, [])
  else
    let e : Int := Text.digitsValue ds
    let exponent : Int := (if minus then -e else e) - places
    (numberToken (Number.ofDecimal? negative digitsSoFar exponent), afterDigits cs)

/-- Scans the exponent of a number, after the letter that announces it. -/
def scanExponent (negative : Bool) (digitsSoFar : Nat) (places : Nat) (cs : List Char) :
    Token × List Char :=
  scanExponentDigits negative digitsSoFar places (exponentSign cs).1 (exponentSign cs).2

/-- Scans what may follow the digits of a number with a fraction. -/
def scanAfterFraction (negative : Bool) (digitsSoFar : Nat) (places : Nat) :
    List Char → Token × List Char
  | [] => (numberToken (Number.ofDecimal? negative digitsSoFar (-places)), [])
  | c :: rest =>
    if c = 'e' ∨ c = 'E' then scanExponent negative digitsSoFar places rest
    else (numberToken (Number.ofDecimal? negative digitsSoFar (-places)), c :: rest)

/-- Scans what may follow the whole part of a number. -/
def scanAfterWhole (negative : Bool) (whole : List Char) : List Char → Token × List Char
  | [] => (numberToken (Number.ofInteger? negative (Text.digitsValue whole)), [])
  | c :: rest =>
    if c = '.' then
      let ds := digits rest
      if ds.isEmpty then (brokenNumber rest, [])
      else scanAfterFraction negative (Text.digitsValue (whole ++ ds)) ds.length (afterDigits rest)
    else if c = 'e' ∨ c = 'E' then scanExponent negative (Text.digitsValue whole) 0 rest
    else (numberToken (Number.ofInteger? negative (Text.digitsValue whole)), c :: rest)

/-- Scans a number after its sign. -/
def scanNumber (negative : Bool) (cs : List Char) : Token × List Char :=
  let whole := digits cs
  if whole.isEmpty then (brokenNumber cs, [])
  else if whole.head? = some '0' ∧ whole.length ≠ 1 then (.broken false .malformed .malformed, [])
  else scanAfterWhole negative whole (afterDigits cs)

/-! ## Tokens -/

/-- Scans a word whose first letter has been seen. -/
def scanWord (token : Token) : List Char → List Char → Token × List Char
  | [], rest => (token, rest)
  | _ :: _, [] => (.broken false .truncated .truncated, [])
  | w :: word, c :: rest =>
    if c = w then scanWord token word rest else (.broken false .malformed .malformed, [])

/-- The punctuation mark that a character is. -/
def mark? (c : Char) : Option Mark :=
  if c = '[' then some .openArray
  else if c = ']' then some .closeArray
  else if c = '\x7b' then some .openObject
  else if c = '\x7d' then some .closeObject
  else if c = ':' then some .colon
  else if c = ',' then some .comma
  else none

/-- Scans the token that begins with a character. -/
def scanToken (c : Char) (rest : List Char) : Token × List Char :=
  match mark? c with
  | some m => (.mark m, rest)
  | none =>
    if c = '"' then scanString {} rest
    else if c = '-' then scanNumber true rest
    else if c.isDigit then scanNumber false (c :: rest)
    else if c = 'n' then scanWord .null ['u', 'l', 'l'] rest
    else if c = 't' then scanWord (.bool true) ['r', 'u', 'e'] rest
    else if c = 'f' then scanWord (.bool false) ['a', 'l', 's', 'e'] rest
    else (.broken false .malformed .malformed, [])

theorem length_scanString (s : Scanned) (cs : List Char) :
    (scanString s cs).2.length ≤ cs.length := by
  fun_induction scanString s cs <;> simp_all <;> omega

theorem length_scanWord (token : Token) (word cs : List Char) :
    (scanWord token word cs).2.length ≤ cs.length := by
  fun_induction scanWord token word cs <;> simp_all
  omega

theorem length_afterDigits (cs : List Char) : (afterDigits cs).length ≤ cs.length :=
  (List.dropWhile_suffix _).length_le

theorem length_exponentSign (cs : List Char) : (exponentSign cs).2.length ≤ cs.length := by
  cases cs with
  | nil => simp [exponentSign]
  | cons c rest => simp only [exponentSign]; split <;> (try split) <;> simp

theorem length_scanExponent (negative : Bool) (n p : Nat) (cs : List Char) :
    (scanExponent negative n p cs).2.length ≤ cs.length := by
  refine Nat.le_trans ?_ (length_exponentSign cs)
  simp only [scanExponent, scanExponentDigits]
  split
  · simp
  · exact length_afterDigits _

theorem length_scanAfterFraction (negative : Bool) (n p : Nat) (cs : List Char) :
    (scanAfterFraction negative n p cs).2.length ≤ cs.length := by
  cases cs with
  | nil => simp [scanAfterFraction]
  | cons c rest =>
    simp only [scanAfterFraction]
    split
    · exact Nat.le_trans (length_scanExponent _ _ _ _) (by simp)
    · simp

theorem length_scanAfterWhole (negative : Bool) (whole cs : List Char) :
    (scanAfterWhole negative whole cs).2.length ≤ cs.length := by
  cases cs with
  | nil => simp [scanAfterWhole]
  | cons c rest =>
    have hd := length_afterDigits rest
    simp only [scanAfterWhole]
    split
    · split
      · simp
      · exact Nat.le_trans (length_scanAfterFraction _ _ _ _) (by simp; omega)
    · split
      · exact Nat.le_trans (length_scanExponent _ _ _ _) (by simp)
      · simp

/-- A number uses up at least the digit it begins with. -/
theorem length_scanNumber (negative : Bool) (c : Char) (rest : List Char) :
    (scanNumber negative (c :: rest)).2.length ≤ rest.length := by
  simp only [scanNumber]
  split
  · simp
  · rename_i h
    split
    · simp
    · refine Nat.le_trans (length_scanAfterWhole _ _ _) ?_
      have hc : c.isDigit = true := by
        cases hc : c.isDigit with
        | true => rfl
        | false => simp [digits, hc] at h
      simpa [afterDigits, hc] using length_afterDigits rest

theorem length_scanToken (c : Char) (rest : List Char) :
    (scanToken c rest).2.length ≤ rest.length := by
  simp only [scanToken]
  split
  · simp
  · split
    · exact length_scanString _ _
    · split
      · cases rest with
        | nil => simp [scanNumber, digits]
        | cons d rest => exact Nat.le_trans (length_scanNumber _ _ _) (by simp)
      · split
        · exact length_scanNumber _ _ _
        · split
          · exact length_scanWord _ _ _
          · split
            · exact length_scanWord _ _ _
            · split
              · exact length_scanWord _ _ _
              · simp

/-- Cuts a text into tokens. -/
def scan : List Char → List Token
  | [] => []
  | c :: rest =>
    if isSpace c then scan rest
    else (scanToken c rest).1 :: scan (scanToken c rest).2
termination_by cs => cs.length
decreasing_by
  · simp
  · have := length_scanToken c rest
    simp only [List.length_cons]
    omega

end Reporting.Json
