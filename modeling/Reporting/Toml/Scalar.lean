import Reporting.Double.Reading
import Reporting.Text.Reader
import Reporting.Time.Calendar
import Reporting.Toml.Basic

/-!
# Toml/Scalar — single values of configuration documents

Strings, numbers, truth values and dates.  A value without quotes is taken as a whole and then has
to be one of the forms in full.
-/

namespace Reporting.Toml

open Text (Reader number literal)

/-- White space within a line. -/
def isWhite (c : Char) : Bool := c = ' ' || c = '\t'

/-- A text without the white space at its start. -/
def skipWhite (cs : List Char) : List Char := cs.dropWhile isWhite

/-- Whether a character may stand in comments and, but for quotes and backslashes, in strings:
anything but control characters, of which the tab is allowed. -/
def isPlain (c : Char) : Bool := c = '\t' || (0x20 ≤ c.toNat && c.toNat ≠ 0x7F)

/-- The end of a line. -/
def newline : Reader Unit
  | '\n' :: rest => some ((), rest)
  | '\r' :: '\n' :: rest => some ((), rest)
  | _ => none

/-! ## Strings -/

/-- The character with a number, unless it is half of a surrogate pair or beyond the last one. -/
def scalarValue? (n : Nat) : Option Char :=
  if h : n.isValidChar then some (Char.ofNatAux n h) else none

/-- A given number of hexadecimal digits as a character. -/
def hexEscape (count : Nat) : Reader Char := fun cs =>
  let ds := cs.take count
  if ds.length = count ∧ ds.all fun d => (Text.hexDigit? d).isSome then
    (scalarValue? (Text.digitsValueIn 16 ds)).map fun c => (c, cs.drop count)
  else none

/-- What follows a backslash. -/
def escape : Reader Char
  | 'b' :: rest => some ('\x08', rest)
  | 't' :: rest => some ('\t', rest)
  | 'n' :: rest => some ('\n', rest)
  | 'f' :: rest => some ('\x0c', rest)
  | 'r' :: rest => some ('\r', rest)
  | '"' :: rest => some ('"', rest)
  | '\\' :: rest => some ('\\', rest)
  | 'u' :: rest => hexEscape 4 rest
  | 'U' :: rest => hexEscape 8 rest
  | _ => none

/-- A string on one line, after its opening quote.  Between double quotes backslashes escape.  The
fuel bounds the number of characters. -/
def lineString (quote : Char) : Nat → Reader (List Char)
  | 0, _ => none
  | fuel + 1, cs =>
    match cs with
    | [] => none
    | c :: rest =>
      if c = quote then some ([], rest)
      else if c = '\\' ∧ quote = '"' then do
        let (c, rest) ← escape rest
        let (cs, rest) ← lineString quote fuel rest
        some (c :: cs, rest)
      else if isPlain c then do
        let (cs, rest) ← lineString quote fuel rest
        some (c :: cs, rest)
      else none

/-- A text without the white space and the line ends at its start; the fuel bounds their number. -/
def skipBlankLines : Nat → List Char → List Char
  | 0, cs => cs
  | fuel + 1, cs =>
    match cs with
    | [] => []
    | c :: rest =>
      if isWhite c then skipBlankLines fuel rest
      else match newline (c :: rest) with
        | some ((), rest) => skipBlankLines fuel rest
        | none => c :: rest

/-- A string over several lines, after its opening quotes.  It ends at three quotes, before which
two more may stand.  A backslash at the end of a line takes away the white space that follows. -/
def blockString (quote : Char) : Nat → Reader (List Char)
  | 0, _ => none
  | fuel + 1, cs =>
    match cs with
    | [] => none
    | c :: rest =>
      if c = quote then
        let quotes := cs.takeWhile (· = quote)
        if quotes.length ≤ 2 then do
          let (cs, rest) ← blockString quote fuel (cs.drop quotes.length)
          some (quotes ++ cs, rest)
        else if quotes.length ≤ 5 then some (quotes.drop 3, cs.drop quotes.length)
        else none
      else if c = '\\' ∧ quote = '"' then
        match newline (skipWhite rest) with
        | some ((), rest) => blockString quote fuel (skipBlankLines rest.length rest)
        | none => do
          let (c, rest) ← escape rest
          let (cs, rest) ← blockString quote fuel rest
          some (c :: cs, rest)
      else
        match newline (c :: rest) with
        | some ((), rest) => do
          let (cs, rest) ← blockString quote fuel rest
          some ('\n' :: cs, rest)
        | none =>
          if isPlain c then do
            let (cs, rest) ← blockString quote fuel rest
            some (c :: cs, rest)
          else none

/-- A string, after its first quote. -/
def quotedString (quote : Char) : Reader String := fun cs =>
  match cs with
  | a :: b :: rest =>
    if a = quote ∧ b = quote then
      let rest := match newline rest with
        | some ((), rest) => rest
        | none => rest
      (blockString quote (rest.length + 1) rest).map fun (s, rest) => (String.ofList s, rest)
    else (lineString quote (cs.length + 1) cs).map fun (s, rest) => (String.ofList s, rest)
  | cs => (lineString quote (cs.length + 1) cs).map fun (s, rest) => (String.ofList s, rest)

/-! ## Numbers -/

/-- Digits between which single underscores may stand, without the underscores. -/
def digitRun? (isDigit : Char → Bool) : List Char → Option (List Char)
  | [] => none
  | [c] => if isDigit c then some [c] else none
  | c :: '_' :: rest => if isDigit c then (digitRun? isDigit rest).map (c :: ·) else none
  | c :: rest => if isDigit c then (digitRun? isDigit rest).map (c :: ·) else none

/-- Whether a number is minus, and the number without its sign. -/
def splitSign : List Char → Bool × List Char
  | '-' :: rest => (true, rest)
  | '+' :: rest => (false, rest)
  | cs => (false, cs)

/-- Decimal digits that do not begin with a needless zero. -/
def wholeDigits? (cs : List Char) : Option (List Char) :=
  match digitRun? Char.isDigit cs with
  | some ds => if ds.head? = some '0' ∧ ds.length ≠ 1 then none else some ds
  | none => none

/-- An integer in base ten, or in another base that two characters announce. -/
def integer? (cs : List Char) : Option Int :=
  let based (base : Nat) (isDigit : Char → Bool) (ds : List Char) : Option Int :=
    (digitRun? isDigit ds).map fun ds => (Text.digitsValueIn base ds : Int)
  match cs with
  | '0' :: 'x' :: ds => based 16 (fun d => (Text.hexDigit? d).isSome) ds
  | '0' :: 'o' :: ds => based 8 (fun d => '0' ≤ d && d ≤ '7') ds
  | '0' :: 'b' :: ds => based 2 (fun d => d = '0' || d = '1') ds
  | cs =>
    let (minus, ds) := splitSign cs
    (wholeDigits? ds).map fun ds =>
      let n : Int := Text.digitsValue ds
      if minus then -n else n

/-- The first integer that 128 bits do not hold with a sign. -/
def signedEnd : Int := 0x80000000000000000000000000000000

/-- An integer that 128 bits hold, with a sign or without. -/
def boundedInteger? (cs : List Char) : Option Int :=
  (integer? cs).bind fun n => if -signedEnd ≤ n ∧ n < 2 * signedEnd then some n else none

/-- The exponent of a number, whose letter comes first; without one it is zero. -/
def exponent? : List Char → Option Int
  | [] => some 0
  | c :: rest =>
    if c = 'e' ∨ c = 'E' then
      let (minus, ds) := splitSign rest
      (digitRun? Char.isDigit ds).map fun ds =>
        let n : Int := Text.digitsValue ds
        if minus then -n else n
    else none

/-- A number with a fraction or an exponent, or one of the names of the values beyond numbers. -/
def float? (cs : List Char) : Option Float :=
  let (minus, unsigned) := splitSign cs
  if unsigned = "inf".toList then some (Double.infinity minus)
  else if unsigned = "nan".toList then some (0.0 / 0.0)
  else do
    let isMark (c : Char) : Bool := c = '.' || c = 'e' || c = 'E'
    let whole ← wholeDigits? (unsigned.takeWhile fun c => !isMark c)
    let rest := unsigned.dropWhile fun c => !isMark c
    let (fraction, rest) ← match rest with
      | '.' :: rest => do
        let ds ← digitRun? Char.isDigit (rest.takeWhile fun c => !isMark c)
        some (ds, rest.dropWhile fun c => !isMark c)
      | [] => none
      | rest => some ([], rest)
    let exponent ← exponent? rest
    Double.ofDecimal? minus (Text.digitsValue (whole ++ fraction)) (exponent - fraction.length)

/-! ## Dates -/

/-- A date. -/
def date : Reader Unit := fun cs => do
  let (year, cs) ← number 4 4 cs
  let ((), cs) ← literal '-' cs
  let (month, cs) ← number 2 2 cs
  let ((), cs) ← literal '-' cs
  let (dayOfMonth, cs) ← number 2 2 cs
  if (⟨year, month, dayOfMonth⟩ : Time.Date).isValid then some ((), cs) else none

/-- A time of day. -/
def time : Reader Unit := fun cs => do
  let (hour, cs) ← number 2 2 cs
  let ((), cs) ← literal ':' cs
  let (minute, cs) ← number 2 2 cs
  let ((), cs) ← literal ':' cs
  let (second, cs) ← number 2 2 cs
  if 23 < hour ∨ 59 < minute ∨ 60 < second then none
  else
    match cs with
    | '.' :: rest =>
      let ds := rest.takeWhile Char.isDigit
      if ds.isEmpty then none else some ((), rest.drop ds.length)
    | cs => some ((), cs)

/-- An offset from universal time, up to the end of the text. -/
def isOffset (cs : List Char) : Bool :=
  match cs with
  | [] => true
  | ['Z'] | ['z'] => true
  | c :: rest =>
    if c = '+' ∨ c = '-' then
      let parts := do
        let (hours, cs) ← number 2 2 rest
        let ((), cs) ← literal ':' cs
        let (minutes, cs) ← number 2 2 cs
        some (hours ≤ 23 && minutes ≤ 59 && cs.isEmpty)
      parts.getD false
    else false

/-- Whether a text is a date, a time of day, or both. -/
def isDatetime (cs : List Char) : Bool :=
  match date cs with
  | some ((), []) => true
  | some ((), c :: rest) =>
    if c = 'T' ∨ c = 't' ∨ c = ' ' then
      match time rest with
      | some ((), rest) => isOffset rest
      | none => false
    else false
  | none =>
    match time cs with
    | some ((), rest) => rest.isEmpty
    | none => false

/-! ## Values without quotes -/

/-- The characters of values without quotes. -/
def isBare (c : Char) : Bool :=
  c.isAlphanum || c = '_' || c = '-' || c = '+' || c = '.' || c = ':'

/-- A value without quotes as a whole.  A date and a time of day may have a space between them. -/
def bareText (cs : List Char) : List Char × List Char :=
  let first := cs.takeWhile isBare
  let rest := cs.dropWhile isBare
  match date first, rest with
  | some ((), []), ' ' :: c :: more =>
    if c.isDigit then (first ++ ' ' :: (c :: more).takeWhile isBare, (c :: more).dropWhile isBare)
    else (first, rest)
  | _, _ => (first, rest)

/-- A value without quotes. -/
def bareValue : Reader Toml := fun cs =>
  let (text, rest) := bareText cs
  let value :=
    if text = "true".toList then some (bool true)
    else if text = "false".toList then some (bool false)
    else if isDatetime text then some (datetime (String.ofList text))
    else
      match boundedInteger? text with
      | some n => some (integer n)
      | none => (float? text).map float
  value.map fun value => (value, rest)

end Reporting.Toml
