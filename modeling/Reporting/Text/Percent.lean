import Reporting.Text.Digits
import Reporting.Text.Split
import Reporting.Text.Utf8

/-!
# Text/Percent — form encoding

The query of a request is a list of `name=value` pairs joined by `&`.  In both parts a plus sign
stands for a space and `%` with two hexadecimal digits for a byte; a `%` without them stands for
itself.
-/

namespace Reporting.Text

/-- The bytes that a form-encoded text stands for. -/
def formBytes : List Char → List UInt8
  | [] => []
  | c :: rest =>
    if c = '+' then 0x20 :: formBytes rest
    else if c = '%' then
      match rest with
      | a :: b :: more =>
        match hexDigit? a, hexDigit? b with
        | some x, some y => UInt8.ofNat (x * 16 + y) :: formBytes more
        | _, _ => 0x25 :: formBytes (a :: b :: more)
      | short => 0x25 :: formBytes short
    else bytes c.toString ++ formBytes rest

/-- The text that a form-encoded text stands for. -/
def formDecode (cs : List Char) : String := String.ofList (decodeLossy (formBytes cs))

/-- The name and value pairs of a query, in order.  A part without `=` has an empty value, and
empty parts are passed over. -/
def formPairs (query : List Char) : List (String × String) :=
  (split '&' query).filterMap fun part =>
    if part.isEmpty then none
    else
      let name := part.takeWhile (· ≠ '=')
      let value := (part.dropWhile (· ≠ '=')).drop 1
      some (formDecode name, formDecode value)

end Reporting.Text
