import Reporting.Json.Printer
import Reporting.Time.Printer
import Reporting.Time.Reader
import Reporting.Value.Basic

/-!
# Value/Wire — values in requests

An operand carries its type: `type` names it and `value` holds it.  Either may come first; an array
of the two will do as well.  When the value comes first it has to be kept until its type is known.
-/

namespace Reporting.Value

open Json (Node Origin Fault Decoder Flaw)

/-- The value as it stands behind its type. -/
def content : Value → Json
  | text s => .string s
  | enum s => .string s
  | number x => .ofFloat x
  | date t => .string t.wireText
  | bool b => .bool b

/-- An operand of a request. -/
def wire (v : Value) : Json :=
  .object [("type", .string v.type.name), ("value", v.content)]

/-- An instant in a request. -/
def decodeInstant : Decoder Time.Instant := fun origin node => do
  let s ← Json.Decode.string origin node
  match Time.Instant.ofWire? s with
  | some t => .ok t
  | none => .error (.noInstant s)

/-- A value of a known type. -/
def decodeContent (type : FieldType) : Decoder Value := fun origin node =>
  match type with
  | .text => (Json.Decode.string origin node).map text
  | .enum => (Json.Decode.string origin node).map enum
  | .number => (Json.Decode.double origin node).map number
  | .date => (decodeInstant origin node).map date
  | .boolean => (Json.Decode.bool origin node).map bool

/-- What the members of an operand have told so far. -/
inductive Progress
  /-- Nothing yet. -/
  | nothing
  /-- The type. -/
  | typed (type : FieldType)
  /-- The value, kept until its type is known. -/
  | kept (content : Node)
  /-- Both. -/
  | whole (value : Value)

/-- A kept tree: all of its text has to name values. -/
def keep (node : Node) : Except Fault Node :=
  match node.toJson with
  | .ok _ => .ok node
  | .error flaw => .error (.text flaw)

/-- Takes in the member `type`. -/
def takeType (origin : Origin) (node : Node) : Progress → Except Fault Progress
  | .nothing => (FieldType.decode origin node).map .typed
  | .kept content => do
    let type ← FieldType.decode origin node
    (decodeContent type .kept content).map .whole
  | .typed _ | .whole _ => .error (.repeated "type")

/-- Takes in the member `value`. -/
def takeContent (origin : Origin) (node : Node) : Progress → Except Fault Progress
  | .nothing => (keep node).map .kept
  | .typed type => (decodeContent type origin node).map .whole
  | .kept _ | .whole _ => .error (.repeated "value")

/-- Takes in the members of an operand in the order in which they come. -/
def takeMembers (origin : Origin) : List (Node × Node) → Progress → Except Fault Progress
  | [], progress => .ok progress
  | (key, value) :: rest, progress =>
    match key.nameText with
    | .error flaw => .error (.text flaw)
    | .ok "type" => do
      let progress ← takeType origin value progress
      takeMembers origin rest progress
    | .ok "value" => do
      let progress ← takeContent origin value progress
      takeMembers origin rest progress
    | .ok _ => do
      Json.Decode.atStop value.flaw?
      takeMembers origin rest progress

/-- What the members have told in the end. -/
def Progress.finish : Progress → Except Fault Value
  | .whole value => .ok value
  | .typed _ => .error (.missing "value")
  | .nothing | .kept _ => .error (.missing "type")

/-- An operand of a request, decoded. -/
def decode : Decoder Value := fun origin node =>
  match node with
  | .object members stop => do
    let progress ← takeMembers origin members .nothing
    Json.Decode.atStop stop
    progress.finish
  | .array [] stop => do
    Json.Decode.atStop stop
    .error (.missing "type")
  | .array [type] stop => do
    let _ ← FieldType.decode origin type
    Json.Decode.atStop stop
    .error (.missing "value")
  | .array (type :: content :: rest) stop => do
    let type ← FieldType.decode origin type
    let value ← decodeContent type origin content
    if rest.isEmpty then do
      Json.Decode.atStop stop
      .ok value
    else .error .surplus
  | node => .error (Json.Decode.refuse "an operand" node)

end Reporting.Value
