import Reporting.Files.Entry
import Reporting.Files.Path
import Reporting.Json.Node
import Reporting.Source.Basic
import Reporting.Text.Blank
import Reporting.Text.Lines

/-!
# Source/File — records in files

A record file holds one JSON array, or one JSON document on each line.  The lines are read apart:
one that cannot be read is a malformed item and touches no other, and blank lines hold nothing.
-/

namespace Reporting

/-- How records are laid out in a file. -/
inductive FileFormat
  | jsonArray
  | jsonLines
  deriving DecidableEq, Repr

/-- The name of a format. -/
def FileFormat.name : FileFormat → String
  | jsonArray => "JsonArray"
  | jsonLines => "JsonLines"

/-- The format that the extension of a file tells. -/
def FileFormat.ofPath (path : String) : FileFormat :=
  match Path.extension? path with
  | some "jsonl" | some "ndjson" => jsonLines
  | _ => jsonArray

namespace Item

/-- The items of a file that holds an array. -/
def ofArrayText (text : String) : Except SourceError (List Item) :=
  match Json.ofText text with
  | .error flaw => .error (.notJson flaw)
  | .ok (.array items) => .ok (ofDocuments 0 items)
  | .ok _ => .error .notAnArray

/-- The item on a line, none if the line is blank. -/
def ofLine? (number : Nat) (line : List Char) : Option Item :=
  if line.all Text.isBlank then none
  else
    match Json.ofText (String.ofList line) with
    | .ok json => some (ofJson number json)
    | .error flaw => some (.malformed ⟨number, .notJson flaw⟩)

/-- The items on lines with numbers that count up from the given one. -/
def ofLines (start : Nat) : List (List Char) → List Item
  | [] => []
  | line :: rest => (ofLine? start line).toList ++ ofLines (start + 1) rest

/-- The items of a file with one document on each line.  The first line has number one. -/
def ofLinesText (text : String) : List Item := ofLines 1 (Text.lines text.toList)

/-- The items of a file of a format. -/
def ofFileText (format : FileFormat) (text : String) : Except SourceError (List Item) :=
  match format with
  | .jsonArray => ofArrayText text
  | .jsonLines => .ok (ofLinesText text)

/-- The items of the file at a path. -/
def ofEntry (path : String) (format : FileFormat) : Entry → Except SourceError (List Item)
  | .missing => .error (.notFound path)
  | .unreadable reason => .error (.unreadable reason)
  | .text content => ofFileText format content

end Item

end Reporting
