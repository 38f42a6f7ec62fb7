import Reporting.Text.Split

/-!
# Files/Path — file names

A path is a list of parts between slashes.  Empty parts and parts that stand for the directory
itself name nothing.
-/

namespace Reporting.Path

/-- The parts of a path that lead anywhere. -/
def parts (path : String) : List (List Char) :=
  (Text.split '/' path.toList).filter fun part => part ≠ [] ∧ part ≠ ['.']

/-- The name of the file that a path leads to, none if its last step goes up. -/
def fileName? (path : String) : Option (List Char) :=
  match (parts path).getLast? with
  | some part => if part = ['.', '.'] then none else some part
  | none => none

/-- What follows the last point of a file name.  A point at the start begins a name, not an
extension. -/
def extension? (path : String) : Option String := do
  let name ← fileName? path
  let tail := name.reverse.takeWhile (· ≠ '.')
  if tail.length + 1 < name.length then some (String.ofList tail.reverse) else none

end Reporting.Path
