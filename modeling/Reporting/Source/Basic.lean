import Reporting.Json.Token

/-!
# Source/Basic — where records come from

A source yields items one after another.  An item is a record, or the report that a record at some
position cannot be read; such items are counted and do no harm.  A source that cannot be opened at
all fails with a `SourceError`.
-/

namespace Reporting

/-- A record: cells by field. -/
abbrev Record := Json.Members

/-- Why a record cannot be read. -/
inductive MalformedReason
  /-- It is JSON of another kind. -/
  | notAnObject (kind : String)
  /-- It is not JSON. -/
  | notJson (flaw : Json.Flaw)
  /-- Anything else. -/
  | described (text : String)
  deriving DecidableEq, Repr

/-- What is said about a reason. -/
def MalformedReason.message : MalformedReason → String
  | notAnObject kind => s!"expected a JSON object, found {kind}"
  | notJson flaw => flaw.message
  | described text => text

/-- A record that cannot be read. -/
structure MalformedRecord where
  position : Nat
  reason : MalformedReason
  deriving DecidableEq, Repr

/-- What is said about a record that cannot be read. -/
def MalformedRecord.message (m : MalformedRecord) : String :=
  s!"record {m.position}: {m.reason.message}"

/-- What a source yields. -/
inductive Item
  | record (r : Record)
  | malformed (m : MalformedRecord)

/-- Why a source cannot be opened. -/
inductive SourceError
  /-- There is no such file. -/
  | notFound (path : String)
  /-- The file cannot be read. -/
  | unreadable (reason : String)
  /-- The file is not JSON. -/
  | notJson (flaw : Json.Flaw)
  /-- The file holds something else than an array. -/
  | notAnArray
  /-- The records have been taken already. -/
  | exhausted
  /-- Anything else. -/
  | unavailable (reason : String)
  deriving DecidableEq, Repr

namespace SourceError

/-- The name of the kind of an error. -/
def kind : SourceError → String
  | notFound _ => "NotFound"
  | unreadable _ => "Io"
  | notJson _ => "Decode"
  | notAnArray => "NotAnArray"
  | exhausted => "Exhausted"
  | unavailable _ => "Unavailable"

/-- What is said about an error. -/
def message : SourceError → String
  | notFound path => s!"record file not found: {path}"
  | unreadable reason => s!"failed to read records: {reason}"
  | notJson flaw => s!"failed to decode records: {flaw.message}"
  | notAnArray => "expected a JSON array of records"
  | exhausted => "record stream already consumed"
  | unavailable reason => reason

end SourceError

/-- A document as the item at a position: only an object is a record. -/
def Item.ofJson (position : Nat) : Json → Item
  | .object members => .record members
  | other => .malformed ⟨position, .notAnObject other.kind⟩

/-- Documents as items, at positions that count up from the given one. -/
def Item.ofDocuments (start : Nat) : List Json → List Item
  | [] => []
  | j :: rest => Item.ofJson start j :: Item.ofDocuments (start + 1) rest

end Reporting
