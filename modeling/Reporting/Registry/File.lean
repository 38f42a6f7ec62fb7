import Reporting.Files.Entry
import Reporting.Registry
import Reporting.Toml.Document

/-!
# Registry/File — registries in files

A registry file is a configuration document with an array of tables named `fields`.
-/

namespace Reporting.Registry

/-- The members of a registry file. -/
def fileShape : Json.Shape (List Field) where
  start := []
  slots := [.optional "fields" (Json.Decode.list Field.decode) fun fields _ => fields]

/-- The registry that a text describes. -/
def ofText (text : String) : Except RegistryError Registry :=
  match Toml.decodeText? fileShape.decode text with
  | some fields => ofFields fields
  | none => .error (.unparsable "not a list of fields")

/-- The registry in the file at a path. -/
def ofEntry (path : String) : Entry → Except RegistryError Registry
  | .missing => .error (.notFound path)
  | .unreadable reason => .error (.unreadable reason)
  | .text content => ofText content

end Reporting.Registry
