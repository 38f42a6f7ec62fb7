import Reporting.Text.Blank
import Reporting.Text.Reader
import Reporting.Time.Instant

/-!
# Time/Reader — text as instants

Dates reach the program in two ways.  Record values are RFC 3339 timestamps or bare dates
(`Instant.ofRecord?`).  Operands of requests are timestamps in a looser form, with parts of one
digit, white space between the parts, and years beyond four digits (`Instant.ofWire?`).
-/

namespace Reporting.Time

open Text (Reader number literal)

/-- The character given, after any white space. -/
def spacedLiteral (c : Char) : Reader Unit := fun cs => literal c (Text.trimStart cs)

/-- What stands between date and time of day. -/
def separator : Reader Unit
  | c :: rest => if c = 'T' ∨ c = 't' ∨ c = ' ' then some ((), rest) else none
  | [] => none

/-- A fraction of a second in nanoseconds, if there is one.  Digits past the ninth count for
nothing. -/
def fraction : Reader Nat
  | '.' :: rest =>
    let ds := rest.takeWhile Char.isDigit
    if ds.isEmpty then none
    else
      let nine := (ds ++ List.replicate 9 '0').take 9
      some (Text.digitsValue nine, rest.dropWhile Char.isDigit)
  | cs => some (0, cs)

/-- A sign: whether it is a minus. -/
def sign : Reader Bool
  | c :: rest =>
    if c = '+' then some (false, rest)
    else if c = '-' ∨ c = '\u2212' then some (true, rest)
    else none
  | [] => none

/-- The offset of local time in seconds: `Z`, or a sign, two digits of hours, what `between` takes,
and two digits of minutes. -/
def offset (between : Reader Unit) : Reader Int
  | [] => none
  | c :: rest =>
    if c = 'Z' ∨ c = 'z' then some (0, rest)
    else do
      let (minus, cs) ← sign (c :: rest)
      let (hours, cs) ← number 2 2 cs
      let ((), cs) ← between cs
      let (minutes, cs) ← number 2 2 cs
      if minutes ≤ 59 then
        let seconds : Int := hours * 3600 + minutes * 60
        some (if minus then -seconds else seconds, cs)
      else none

/-- A time of day. -/
structure Clock where
  hour : Nat
  minute : Nat
  second : Nat
  nano : Nat

/-- The instant of a local date and time of day at an offset, if there is one.  The sixtieth second
of a minute is a leap second. -/
def Instant.ofLocal? (d : Date) (c : Clock) (offset : Int) : Option Instant :=
  if d.isValid ∧ c.hour ≤ 23 ∧ c.minute ≤ 59 ∧ c.second ≤ 60 ∧ offset.natAbs < 86400 then
    let ofDay := c.hour * 3600 + c.minute * 60 + min c.second 59
    let nano := if c.second = 60 then nanosPerSecond + c.nano else c.nano
    if (ofDate? d).isSome then of? (d.day * 86400 + ofDay - offset) nano else none
  else none

/-- The whole of an RFC 3339 timestamp. -/
def Instant.ofTimestamp? (cs : List Char) : Option Instant := do
  let (year, cs) ← number 4 4 cs
  let ((), cs) ← literal '-' cs
  let (month, cs) ← number 2 2 cs
  let ((), cs) ← literal '-' cs
  let (dayOfMonth, cs) ← number 2 2 cs
  let ((), cs) ← separator cs
  let (hour, cs) ← number 2 2 cs
  let ((), cs) ← literal ':' cs
  let (minute, cs) ← number 2 2 cs
  let ((), cs) ← literal ':' cs
  let (second, cs) ← number 2 2 cs
  let (nano, cs) ← fraction cs
  let (offset, cs) ← offset (literal ':') cs
  if cs.isEmpty then ofLocal? ⟨year, month, dayOfMonth⟩ ⟨hour, minute, second, nano⟩ offset else none

/-- A part of a looser date: any white space, then one or two digits. -/
def part : Reader Nat := fun cs => number 1 2 (Text.trimStart cs)

/-- A year of a looser date: any white space, then four digits at most, or a sign and any number of
digits. -/
def signedYear : Reader Int := fun cs =>
  match Text.trimStart cs with
  | '-' :: rest => (number 1 rest.length rest).map fun (n, rest) => (-(n : Int), rest)
  | '+' :: rest => (number 1 rest.length rest).map fun (n, rest) => ((n : Int), rest)
  | cs => (number 1 4 cs).map fun (n, rest) => ((n : Int), rest)

/-- The whole of a bare date. -/
def Date.ofText? (cs : List Char) : Option Date := do
  let (year, cs) ← signedYear cs
  let ((), cs) ← literal '-' cs
  let (month, cs) ← part cs
  let ((), cs) ← literal '-' cs
  let (dayOfMonth, cs) ← part cs
  let d : Date := ⟨year, month, dayOfMonth⟩
  if cs.isEmpty ∧ d.isValid then some d else none

/-- The instant that a record value stands for: a timestamp, or a date for the start of its day. -/
def Instant.ofRecord? (text : String) : Option Instant :=
  match ofTimestamp? text.toList with
  | some t => some t
  | none => (Date.ofText? text.toList).bind ofDate?

/-- Colons and white space, any number of them. -/
def colons : Reader Unit := fun cs => some ((), cs.dropWhile fun c => c == ':' || Text.isBlank c)

/-- A looser offset, which may also be the word `UTC` in capitals or not. -/
def looseOffset : Reader Int := fun cs =>
  match cs with
  | u :: t :: c :: rest =>
    if u.toUpper = 'U' ∧ t.toUpper = 'T' ∧ c.toUpper = 'C' then some (0, rest) else offset colons cs
  | _ => offset colons cs

/-- The instant that an operand of a request stands for. -/
def Instant.ofWire? (text : String) : Option Instant := do
  let (year, cs) ← signedYear text.toList
  let ((), cs) ← spacedLiteral '-' cs
  let (month, cs) ← part cs
  let ((), cs) ← spacedLiteral '-' cs
  let (dayOfMonth, cs) ← part cs
  let ((), cs) ← separator cs
  let (hour, cs) ← part cs
  let ((), cs) ← spacedLiteral ':' cs
  let (minute, cs) ← part cs
  let ((), cs) ← spacedLiteral ':' cs
  let (second, cs) ← part cs
  let (nano, cs) ← fraction cs
  let (offset, cs) ← looseOffset (Text.trimStart cs)
  if (Text.trimStart cs).isEmpty then
    ofLocal? ⟨year, month, dayOfMonth⟩ ⟨hour, minute, second, nano⟩ offset
  else none

end Reporting.Time
