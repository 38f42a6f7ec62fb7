import Reporting.Double.Reading
import Reporting.Json.Node

/-!
# Json/Decode — trees as the data of a request

A decoder walks a tree in the order of its text and stops at the first thing that does not suit it.
What suits depends a little on where the tree comes from (`Origin`): text can break, kept trees
take an empty object for nothing, and configuration ignores what an array has too much.

Records of named members are decoded by a `Shape`: the same list of slots serves an object, whose
members come in any order, and an array, whose items come in the order of the slots.
-/

namespace Reporting.Json

/-- Where a tree comes from. -/
inductive Origin
  /-- JSON text, read while it is decoded. -/
  | text
  /-- A document that has been read before. -/
  | document
  /-- A part of either that was kept aside while alternatives are tried. -/
  | kept
  /-- A configuration document. -/
  | configuration
  deriving DecidableEq, Repr

/-- Why a tree does not stand for the data it should. -/
inductive Fault
  /-- The text is not JSON. -/
  | text (flaw : Flaw)
  /-- There is more than the data has room for. -/
  | surplus
  /-- There is no name where one of several is expected. -/
  | unnamed
  /-- Something of another kind is expected. -/
  | mismatch (expected : String)
  /-- A number is beyond its range. -/
  | outOfRange
  /-- A name is none of the expected ones. -/
  | unknownName (name : String)
  /-- A member occurs twice. -/
  | repeated (name : String)
  /-- A member does not occur. -/
  | missing (name : String)
  /-- A text is no instant. -/
  | noInstant (text : String)
  /-- None of the alternatives suits. -/
  | noAlternative
  deriving DecidableEq, Repr

/-- What kind of mistake a fault is. -/
inductive Category
  /-- The text is not JSON. -/
  | notJson
  /-- The text ends too early. -/
  | tooShort
  /-- The JSON has the wrong shape. -/
  | wrongShape
  deriving DecidableEq, Repr

/-- What kind of mistake a fault is.  In text, surplus and missing names are seen from the
punctuation and count as mistakes of the text. -/
def Fault.category (origin : Origin) : Fault → Category
  | .text .malformed => .notJson
  | .text .truncated => .tooShort
  | .surplus | .unnamed => if origin = .text then .notJson else .wrongShape
  | _ => .wrongShape

/-- What decodes a tree. -/
abbrev Decoder (α : Type) := Origin → Node → Except Fault α

namespace Decode

/-- The fault of a tree that is not of the kind expected.  What cannot be read is not of any kind,
but an array or an object is known by its first character. -/
def refuse (expected : String) : Node → Fault
  | .flawed .container _ _ => .mismatch expected
  | .flawed _ read _ => .text read
  | _ => .mismatch expected

/-- Fails where the text breaks. -/
def atStop : Option Flaw → Except Fault Unit
  | none => .ok ()
  | some flaw => .error (.text flaw)

/-! ## Single values -/

/-- A string. -/
def string : Decoder String := fun _ node =>
  match node with
  | .string s => .ok s
  | node => .error (refuse "a string" node)

/-- A truth value. -/
def bool : Decoder Bool := fun _ node =>
  match node with
  | .bool b => .ok b
  | node => .error (refuse "a boolean" node)

/-- A double, which may be written as an integer. -/
def double : Decoder Float := fun _ node =>
  match node with
  | .number (.int n _) => .ok (Double.ofInt n)
  | .number (.float x _) => .ok x
  | node => .error (refuse "a number" node)

/-- A natural number below a bound. -/
def natural (bound : Nat) : Decoder Nat := fun _ node =>
  match node with
  | .number (.int n _) => if 0 ≤ n ∧ n < bound then .ok n.toNat else .error .outOfRange
  | .number (.float _ _) => .error (.mismatch "an integer")
  | node => .error (refuse "an integer" node)

/-- A count: a natural number of 64 bits. -/
def count : Decoder Nat := natural UInt64.size

/-- Nothing, in the place of what a name could carry. -/
def nothing : Decoder Unit := fun origin node =>
  match origin, node with
  | .configuration, .array [] _ => .ok ()
  | .configuration, .object [] _ => .ok ()
  | .configuration, node => .error (refuse "an empty table" node)
  | .kept, .object [] _ => .ok ()
  | _, .null => .ok ()
  | _, node => .error (refuse "null" node)

/-- A value or `null`. -/
def optional {α : Type} (decode : Decoder α) : Decoder (Option α) := fun origin node =>
  match node with
  | .null => .ok none
  | node => (decode origin node).map some

/-- The choice with a name. -/
def named {α : Type} (choices : List α) (name : α → String) (s : String) : Except Fault α :=
  match choices.find? fun choice => name choice == s with
  | some choice => .ok choice
  | none => .error (.unknownName s)

/-- One of several names: a string, or an object with the name as its only member, which holds
nothing. -/
def oneOf {α : Type} (choices : List α) (name : α → String) : Decoder α := fun origin node =>
  match node with
  | .string s => named choices name s
  | .object [] stop => do
    atStop stop
    .error .unnamed
  | .object ((key, value) :: rest) stop => do
    let key ← string origin key
    let choice ← named choices name key
    nothing origin value
    if rest.isEmpty then do
      atStop stop
      .ok choice
    else .error .surplus
  | .flawed .bare _ _ => .error .unnamed
  | .flawed _ read _ => .error (.text read)
  | _ => .error .unnamed

/-! ## Several values -/

/-- Items, one after another. -/
def items {α : Type} (decode : Decoder α) (origin : Origin) : List Node → Except Fault (List α)
  | [] => .ok []
  | item :: rest => do
    let item ← decode origin item
    let rest ← items decode origin rest
    .ok (item :: rest)

/-- An array. -/
def list {α : Type} (decode : Decoder α) : Decoder (List α) := fun origin node =>
  match node with
  | .array nodes stop => do
    let result ← items decode origin nodes
    atStop stop
    .ok result
  | node => .error (refuse "an array" node)

/-- Any document. -/
def document : Decoder Json := fun _ node =>
  match node.toJson with
  | .ok json => .ok json
  | .error flaw => .error (.text flaw)

/-- An object of any content. -/
def members : Decoder Members := fun origin node =>
  match node with
  | .object _ _ => do
    match ← document origin node with
    | .object members => .ok members
    | _ => .error (.mismatch "an object")
  | node => .error (refuse "an object" node)

end Decode

/-! ## Records of named members -/

/-- A member of a record: its name, whether it may be absent, and how it is put into the record. -/
structure Slot (σ : Type) where
  name : String
  required : Bool
  read : Origin → Node → σ → Except Fault σ

/-- A member that has to be there. -/
def Slot.mandatory {σ α : Type} (name : String) (decode : Decoder α) (set : α → σ → σ) : Slot σ :=
  ⟨name, true, fun origin node record => (decode origin node).map fun value => set value record⟩

/-- A member that may be absent, in which case the record keeps what it starts with. -/
def Slot.optional {σ α : Type} (name : String) (decode : Decoder α) (set : α → σ → σ) : Slot σ :=
  ⟨name, false, fun origin node record => (decode origin node).map fun value => set value record⟩

/-- A record of named members: what it starts with, and its members in order. -/
structure Shape (σ : Type) where
  start : σ
  slots : List (Slot σ)

namespace Shape

variable {σ : Type}

/-- Reads members in the order in which they come.  An unknown one is passed over; a known one may
come once. -/
def readMembers (slots : List (Slot σ)) (origin : Origin) :
    List (Node × Node) → List String → σ → Except Fault (List String × σ)
  | [], seen, record => .ok (seen, record)
  | (key, value) :: rest, seen, record =>
    match key.nameText with
    | .error flaw => .error (.text flaw)
    | .ok name =>
      match slots.find? fun slot => slot.name == name with
      | none => do
        Decode.atStop value.flaw?
        readMembers slots origin rest seen record
      | some slot =>
        if seen.contains name then .error (.repeated name)
        else do
          let record ← slot.read origin value record
          readMembers slots origin rest (name :: seen) record

/-- Fails at the first member that has to be there and is not among those seen. -/
def checkMissing (slots : List (Slot σ)) (seen : List String) : Except Fault Unit :=
  match slots.find? fun slot => slot.required && !seen.contains slot.name with
  | some slot => .error (.missing slot.name)
  | none => .ok ()

/-- Reads items as the members in order. -/
def readItems (origin : Origin) : List (Slot σ) → List Node → Option Flaw → σ → Except Fault σ
  | [], [], stop, record => do
    Decode.atStop stop
    .ok record
  | [], _ :: _, _, record => if origin = .configuration then .ok record else .error .surplus
  | slot :: slots, [], stop, record => do
    Decode.atStop stop
    checkMissing (slot :: slots) []
    .ok record
  | slot :: slots, item :: rest, stop, record => do
    let record ← slot.read origin item record
    readItems origin slots rest stop record

/-- A record, from an object or an array. -/
def decode (shape : Shape σ) : Decoder σ := fun origin node =>
  match node with
  | .object members stop => do
    let (seen, record) ← readMembers shape.slots origin members [] shape.start
    Decode.atStop stop
    checkMissing shape.slots seen
    .ok record
  | .array items stop => readItems origin shape.slots items stop shape.start
  | node => .error (Decode.refuse "an object" node)

end Shape

/-! ## Whole texts and documents -/

/-- Decodes the whole of a text. -/
def decodeText {α : Type} (decode : Decoder α) (text : String) : Except Fault α := do
  let (node, more) := Node.ofText text
  let value ← decode .text node
  if more then .error (.text .malformed) else .ok value

/-- Decodes a document. -/
def decodeDocument {α : Type} (decode : Decoder α) (json : Json) : Except Fault α :=
  decode .document (Node.ofJson json)

end Reporting.Json
