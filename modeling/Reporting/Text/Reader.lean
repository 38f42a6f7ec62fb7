import Reporting.Text.Digits

/-!
# Text/Reader — reading a text from its start

A reader takes what it needs from the start of a text and gives its value and the rest, or nothing
if the text does not begin so.
-/

namespace Reporting.Text

/-- A reader: the value of what stands at the start of a text, and the rest of the text. -/
abbrev Reader (α : Type) := List Char → Option (α × List Char)

/-- Between `least` and `most` digits, as many as there are. -/
def number (least : Nat) (most : Nat) : Reader Nat := fun cs =>
  let ds := (cs.take most).takeWhile Char.isDigit
  if ds.length < least then none else some (digitsValue ds, cs.drop ds.length)

/-- The character given. -/
def literal (c : Char) : Reader Unit
  | d :: rest => if d = c then some ((), rest) else none
  | [] => none

/-- A character given leaves what follows it. -/
theorem literal_cons (c : Char) (rest : List Char) : literal c (c :: rest) = some ((), rest) := by
  simp [literal]

end Reporting.Text
