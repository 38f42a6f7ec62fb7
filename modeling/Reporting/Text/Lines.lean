/-!
# Text/Lines — a text as its lines

A line ends at a line feed, and a carriage return directly before that line feed belongs to the
line's end, not to the line.  What follows the last line feed is a line of its own unless it is
empty.
-/

namespace Reporting.Text

/-- Puts a character in front of the first line. -/
def consLine (c : Char) : List (List Char) → List (List Char)
  | [] => [[c]]
  | line :: more => (c :: line) :: more

/-- The lines of a text, without their ends. -/
def lines : List Char → List (List Char)
  | [] => []
  | c :: rest =>
    if c = '\n' then [] :: lines rest
    else if c = '\r' ∧ rest.head? = some '\n' then lines rest
    else consLine c (lines rest)

/-- A line feed ends a line, whatever follows it. -/
theorem lines_lineFeed (rest : List Char) : lines ('\n' :: rest) = [] :: lines rest := by
  simp [lines]

/-- The two characters of a carriage return line end count as one. -/
theorem lines_carriageReturn (rest : List Char) :
    lines ('\r' :: '\n' :: rest) = [] :: lines rest := by
  simp [lines]

end Reporting.Text
