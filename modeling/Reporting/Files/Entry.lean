/-!
# Files/Entry — what is found at a path

Programs read files whole and only as text, so all that matters about a path is whether something is
there and, if it is, its text.
-/

namespace Reporting

/-- What is found at a path. -/
inductive Entry
  | missing
  /-- Something that cannot be read as text, such as a directory. -/
  | unreadable (reason : String)
  /-- A file that holds text. -/
  | text (content : String)
  deriving DecidableEq, Repr

namespace Entry

/-- Whether there is anything. -/
def isPresent : Entry → Bool
  | missing => false
  | _ => true

/-- A directory. -/
def directory : Entry := unreadable "is a directory"

/-- A file that holds bytes. -/
def ofBytes (bytes : ByteArray) : Entry :=
  match String.fromUTF8? bytes with
  | some content => text content
  | none => unreadable "the file does not hold text"

end Entry

end Reporting
