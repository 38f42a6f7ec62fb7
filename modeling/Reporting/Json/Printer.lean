import Reporting.Double.Layout
import Reporting.Json.Basic

/-!
# Json/Printer — documents as text

`Json.compact` leaves out all white space, `Json.pretty` gives every item and member a line of its
own, two spaces further in than what holds it.  Strings escape the quote, the backslash and the
control characters below the space, and nothing else.
-/

namespace Reporting.Json

/-- A digit of a `\u` escape. -/
def hexChar (n : Nat) : Char := Nat.digitChar (n % 16)

/-- A character inside a string. -/
def escape (c : Char) : List Char :=
  if c = '"' then ['\\', '"']
  else if c = '\\' then ['\\', '\\']
  else if c = '\n' then ['\\', 'n']
  else if c = '\r' then ['\\', 'r']
  else if c = '\t' then ['\\', 't']
  else if c.toNat = 8 then ['\\', 'b']
  else if c.toNat = 12 then ['\\', 'f']
  else if c.toNat < 32 then ['\\', 'u', '0', '0', hexChar (c.toNat / 16), hexChar c.toNat]
  else [c]

/-- A string between quotes. -/
def quoted (s : String) : List Char := '"' :: s.toList.flatMap escape ++ ['"']

/-- An integer in base ten. -/
def intText (n : Int) : List Char :=
  if n < 0 then '-' :: Double.decimalDigits n.natAbs else Double.decimalDigits n.natAbs

/-- A number. -/
def Number.text : Number → List Char
  | .int n _ => intText n
  | .float x _ => Double.Layout.exchange.text x

/-! ## Without white space -/

mutual

/-- A document without white space. -/
def compactText : Json → List Char
  | null => "null".toList
  | bool true => "true".toList
  | bool false => "false".toList
  | number n => n.text
  | string s => quoted s
  | array items => '[' :: compactItems items
  | object members => '\x7b' :: compactMembers members

/-- The items of an array and what closes it. -/
def compactItems : List Json → List Char
  | [] => [']']
  | [item] => compactText item ++ [']']
  | item :: rest => compactText item ++ ',' :: compactItems rest

/-- The members of an object and what closes it. -/
def compactMembers : List (String × Json) → List Char
  | [] => ['\x7d']
  | [(name, value)] => quoted name ++ ':' :: compactText value ++ ['\x7d']
  | (name, value) :: rest => quoted name ++ ':' :: compactText value ++ ',' :: compactMembers rest

end

/-! ## A line for each item -/

/-- The start of a line at a depth. -/
def newLine (depth : Nat) : List Char := '\n' :: List.replicate (2 * depth) ' '

mutual

/-- A document at a depth, its items and members on lines of their own. -/
def prettyText (depth : Nat) : Json → List Char
  | null => "null".toList
  | bool true => "true".toList
  | bool false => "false".toList
  | number n => n.text
  | string s => quoted s
  | array [] => "[]".toList
  | array items => '[' :: prettyItems depth items
  | object [] => "\x7b\x7d".toList
  | object members => '\x7b' :: prettyMembers depth members

/-- The items of an array at a depth, and what closes it. -/
def prettyItems (depth : Nat) : List Json → List Char
  | [] => [']']
  | [item] => newLine (depth + 1) ++ prettyText (depth + 1) item ++ newLine depth ++ [']']
  | item :: rest =>
    newLine (depth + 1) ++ prettyText (depth + 1) item ++ ',' :: prettyItems depth rest

/-- The members of an object at a depth, and what closes it. -/
def prettyMembers (depth : Nat) : List (String × Json) → List Char
  | [] => ['\x7d']
  | [(name, value)] =>
    newLine (depth + 1) ++ quoted name ++ ": ".toList ++ prettyText (depth + 1) value ++
      newLine depth ++ ['\x7d']
  | (name, value) :: rest =>
    newLine (depth + 1) ++ quoted name ++ ": ".toList ++ prettyText (depth + 1) value ++
      ',' :: prettyMembers depth rest

end

/-- A document as one line. -/
def compact (j : Json) : String := String.ofList j.compactText

/-- A document over several lines. -/
def pretty (j : Json) : String := String.ofList (j.prettyText 0)

end Reporting.Json
