import Reporting.Definition.Basic
import Reporting.Digest.Sha256
import Reporting.Text.Utf8
import Reporting.Value.Wire

/-!
# Definition/Wire — definitions as documents

The canonical text of a definition lists its members in a fixed order and leaves out operands and
limits that are not there.  Its hash is the fingerprint of the definition.
-/

namespace Reporting

open Json.Decode (string list optional count)

/-- A member that is left out when there is nothing to say. -/
def optionalMember {α : Type} (name : String) (json : α → Json) : Option α → List (String × Json)
  | some x => [(name, json x)]
  | none => []

/-- Strings as a document. -/
def stringsJson (xs : List String) : Json := .array (xs.map .string)

namespace Operand

/-- An operand as a document. -/
def json : Operand → Json
  | one value => value.wire
  | many values => .array (values.map Value.wire)

/-- An operand, decoded: first as a value, then as a set of values.  The tree is kept aside while
these are tried. -/
def decode : Json.Decoder Operand := fun _ node => do
  let node ← Value.keep node
  match Value.decode .kept node with
  | .ok value => .ok (one value)
  | .error _ =>
    match list Value.decode .kept node with
    | .ok values => .ok (many values)
    | .error _ => .error .noAlternative

end Operand

namespace Clause

/-- A condition as a document. -/
def json (c : Clause) : Json :=
  .object <|
    [("fieldId", .string c.fieldId), ("operator", .string c.operator.name)] ++
    optionalMember "value" Operand.json c.value ++ optionalMember "valueEnd" Value.wire c.valueEnd

/-- The members of a condition. -/
def shape : Json.Shape Clause where
  start := ⟨"", .equals, none, none⟩
  slots := [
    .mandatory "fieldId" string fun x c => { c with fieldId := x },
    .mandatory "operator" Operator.decode fun x c => { c with operator := x },
    .optional "value" (optional Operand.decode) fun x c => { c with value := x },
    .optional "valueEnd" (optional Value.decode) fun x c => { c with valueEnd := x }]

end Clause

namespace SortKey

/-- A sort key as a document. -/
def json (k : SortKey) : Json :=
  .object [("fieldId", .string k.fieldId), ("direction", .string k.direction.name)]

/-- The members of a sort key, which is ascending unless it says otherwise. -/
def shape : Json.Shape SortKey where
  start := ⟨"", .asc⟩
  slots := [
    .mandatory "fieldId" string fun x k => { k with fieldId := x },
    .optional "direction" Direction.decode fun x k => { k with direction := x }]

end SortKey

namespace Aggregation

/-- An aggregation as a document. -/
def json (a : Aggregation) : Json :=
  .object [("fieldId", .string a.fieldId), ("function", .string a.function.name),
    ("alias", .string a.target)]

/-- The members of an aggregation. -/
def shape : Json.Shape Aggregation where
  start := ⟨"", .sum, ""⟩
  slots := [
    .mandatory "fieldId" string fun x a => { a with fieldId := x },
    .mandatory "function" Reduction.decode fun x a => { a with function := x },
    .mandatory "alias" string fun x a => { a with target := x }]

end Aggregation

/-- The hash of the compact text of a document. -/
def Json.hash (j : Json) : String := Digest.sha256 (Text.bytes j.compact)

/-- The first digits of a hash, or all of it where it cannot be cut. -/
def abbreviate (hash : String) (size : Nat) : String :=
  match Text.prefixOfSize? size hash.toList with
  | some cs => String.ofList cs
  | none => hash

namespace Definition

/-- A definition as a document. -/
def json (d : Definition) : Json :=
  .object <|
    [("fields", stringsJson d.fields), ("filters", .array (d.filters.map Clause.json)),
      ("sort", .array (d.sort.map SortKey.json)), ("groupBy", stringsJson d.groupBy),
      ("aggregations", .array (d.aggregations.map Aggregation.json))] ++
    optionalMember "limit" .ofNat d.limit ++ [("offset", .ofNat d.offset)]

/-- The members of a definition, all of which may be absent. -/
def shape : Json.Shape Definition where
  start := {}
  slots := [
    .optional "fields" (list string) fun x d => { d with fields := x },
    .optional "filters" (list Clause.shape.decode) fun x d => { d with filters := x },
    .optional "sort" (list SortKey.shape.decode) fun x d => { d with sort := x },
    .optional "groupBy" (list string) fun x d => { d with groupBy := x },
    .optional "aggregations" (list Aggregation.shape.decode) fun x d => { d with aggregations := x },
    .optional "limit" (optional count) fun x d => { d with limit := x },
    .optional "offset" count fun x d => { d with offset := x }]

/-- A definition, decoded. -/
def decode : Json.Decoder Definition := shape.decode

/-- The canonical text of a definition. -/
def canonical (d : Definition) : String := d.json.compact

/-- What tells definitions of different content apart. -/
def fingerprint (d : Definition) : String := d.json.hash

end Definition

end Reporting
