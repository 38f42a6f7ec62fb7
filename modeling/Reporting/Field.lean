import Reporting.FieldType
import Reporting.Json.Printer

/-!
# Field — what records can be asked about

A field names an attribute of a record and says what reports may do with it.
-/

namespace Reporting

/-- An attribute of records. -/
structure Field where
  id : String
  name : String
  type : FieldType
  /-- The kind of record that the field belongs to. -/
  entity : String
  filterable : Bool
  sortable : Bool
  groupable : Bool
  /-- The values of an enum field, in the order in which they sort. -/
  enumValues : List String
  unit : Option String
  deriving DecidableEq, Repr

namespace Field

/-- A field that reports may do anything with. -/
def unrestricted (id name : String) (type : FieldType) (entity : String) : Field :=
  ⟨id, name, type, entity, true, true, true, [], none⟩

/-- The place of a value among the declared ones. -/
def enumRank? (f : Field) (value : String) : Option Nat := f.enumValues.findIdx? (· == value)

/-- The names of what reports may do with a field. -/
def capabilities (f : Field) : List String :=
  (if f.filterable then ["filter"] else []) ++ (if f.sortable then ["sort"] else []) ++
    if f.groupable then ["group"] else []

/-- A field as a document. -/
def json (f : Field) : Json :=
  .object <|
    [("id", .string f.id), ("name", .string f.name), ("type", .string f.type.name),
      ("entity", .string f.entity), ("filterable", .bool f.filterable),
      ("sortable", .bool f.sortable), ("groupable", .bool f.groupable)] ++
    (if f.enumValues.isEmpty then [] else [("enumValues", .array (f.enumValues.map .string))]) ++
    match f.unit with
    | some unit => [("unit", .string unit)]
    | none => []

open Json.Decode in
/-- The members of a field.  What is not said to be allowed is not. -/
def shape : Json.Shape Field where
  start := ⟨"", "", .text, "", false, false, false, [], none⟩
  slots := [
    .mandatory "id" string fun x f => { f with id := x },
    .mandatory "name" string fun x f => { f with name := x },
    .mandatory "type" FieldType.decode fun x f => { f with type := x },
    .mandatory "entity" string fun x f => { f with entity := x },
    .optional "filterable" bool fun x f => { f with filterable := x },
    .optional "sortable" bool fun x f => { f with sortable := x },
    .optional "groupable" bool fun x f => { f with groupable := x },
    .optional "enumValues" (list string) fun x f => { f with enumValues := x },
    .optional "unit" (optional string) fun x f => { f with unit := x }]

/-- A field, decoded. -/
def decode : Json.Decoder Field := shape.decode

end Field

end Reporting
