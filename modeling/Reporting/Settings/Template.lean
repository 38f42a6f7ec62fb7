import Reporting.Settings.Basic
import Reporting.Text.Alphanumeric

/-!
# Settings/Template — paths that refer to variables

A path may refer to variables as `$NAME`, where the name goes on as far as it can, or between
braces.  A dollar sign before anything else stands for itself.  A template is read into segments
once and the values of variables are put in as they are, so nothing in a value is read again.
-/

namespace Reporting

/-- A piece of a template. -/
inductive Segment
  /-- Text that stands for itself. -/
  | literal (cs : List Char)
  /-- A dollar sign that stands for itself. -/
  | dollar
  /-- A reference `$NAME`. -/
  | bare (name : List Char)
  /-- A reference with the name between braces. -/
  | braced (name : List Char)
  deriving DecidableEq, Repr

/-- The values of the variables that are set. -/
abbrev Variables := String → Option String

namespace Segment

/-- A segment as it is written. -/
def text : Segment → List Char
  | literal cs => cs
  | dollar => ['$']
  | bare name => '$' :: name
  | braced name => '$' :: '\x7b' :: name ++ ['\x7d']

/-- The variable that a segment refers to. -/
def reference? : Segment → Option String
  | bare name | braced name => some (String.ofList name)
  | _ => none

/-- What a segment stands for. -/
def value (vars : Variables) (s : Segment) : Except SettingsError (List Char) :=
  match s.reference? with
  | some name =>
    match vars name with
    | some value => .ok value.toList
    | none => .error (.missingVariable name)
  | none => .ok s.text

end Segment

/-- A template: its segments in order. -/
abbrev Template := List Segment

namespace Template

/-- A template as it is written. -/
def text (t : Template) : List Char := t.flatMap Segment.text

theorem length_dropWhile_le (p : Char → Bool) (cs : List Char) :
    (cs.dropWhile p).length ≤ cs.length := (List.dropWhile_sublist p).length_le

/-- The template that is written as a text.  A brace that is not closed takes all that follows as
the name. -/
def ofText : List Char → Template
  | [] => []
  | '$' :: '\x7b' :: rest =>
    .braced (rest.takeWhile (· ≠ '\x7d')) :: ofText ((rest.dropWhile (· ≠ '\x7d')).drop 1)
  | '$' :: rest =>
    if (rest.takeWhile Text.isNameChar).isEmpty then .dollar :: ofText rest
    else .bare (rest.takeWhile Text.isNameChar) :: ofText (rest.dropWhile Text.isNameChar)
  | c :: rest => .literal [c] :: ofText rest
termination_by cs => cs.length
decreasing_by
  all_goals simp only [List.length_cons, List.length_drop]
  · have := length_dropWhile_le (· ≠ '\x7d') rest
    omega
  · omega
  · have := length_dropWhile_le Text.isNameChar rest
    omega
  · omega

/-- The variables that a template refers to. -/
def references (t : Template) : List String := t.filterMap Segment.reference?

/-- What a template stands for, unless a variable is not set. -/
def value (vars : Variables) : Template → Except SettingsError (List Char)
  | [] => .ok []
  | s :: rest => do
    let cs ← s.value vars
    let more ← value vars rest
    .ok (cs ++ more)

end Template

/-- A text with the values of variables in the place of references to them. -/
def expand (vars : Variables) (text : String) : Except SettingsError String :=
  ((Template.ofText text.toList).value vars).map String.ofList

end Reporting
