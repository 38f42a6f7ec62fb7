import Reporting.Json.Token

/-!
# Json/Node — JSON text read as far as it goes

`Node.ofText` turns tokens into a tree and never fails: where the text stops being JSON the tree
says so, at that place.  A reader that walks the tree in the order of the text therefore meets
either the first thing that does not suit it or the place where the text breaks, whichever comes
first.

A value that is wanted is *read*, and all of its text has to name values; a value that nobody asked
for is *passed over* (`Node.flaw?`), which only asks for its form.  Reading also goes no deeper than
`maxDepth` containers; passing over has no such bound.
-/

namespace Reporting.Json

/-- What stands at a place where a value cannot be read. -/
inductive Start
  /-- Nothing that begins a value. -/
  | absent
  /-- A string. -/
  | quoted
  /-- A word or a number. -/
  | bare
  /-- An array or an object. -/
  | container
  deriving DecidableEq, Repr

/-- JSON text as a tree. -/
inductive Node
  | null
  | bool (value : Bool)
  | number (value : Number)
  | string (value : String)
  /-- An array.  `stop` tells how the text breaks after the last item, if it breaks there. -/
  | array (items : List Node) (stop : Option Flaw)
  /-- An object, with its members in the order of the text. -/
  | object (members : List (Node × Node)) (stop : Option Flaw)
  /-- A value that cannot be read, and how it can be passed over. -/
  | flawed (start : Start) (read : Flaw) (skip : Option Flaw)

/-- How deep containers may be nested. -/
def maxDepth : Nat := 127

namespace Node

/-! ## Passing over -/

/-- How the text of the name of a member breaks for who passes over it. -/
def nameFlaw? : Node → Option Flaw
  | string _ => none
  | flawed .quoted _ skip => skip
  | flawed .absent read _ => some read
  | _ => some .malformed

mutual

/-- How a text breaks for who passes over it. -/
def flaw? : Node → Option Flaw
  | null | bool _ | number _ | string _ => none
  | array items stop => (itemsFlaw? items).or stop
  | object members stop => (membersFlaw? members).or stop
  | flawed _ _ skip => skip

/-- How the text of some items breaks. -/
def itemsFlaw? : List Node → Option Flaw
  | [] => none
  | item :: rest => item.flaw?.or (itemsFlaw? rest)

/-- How the text of some members breaks. -/
def membersFlaw? : List (Node × Node) → Option Flaw
  | [] => none
  | (name, value) :: rest => (name.nameFlaw?.or value.flaw?).or (membersFlaw? rest)

end

/-! ## From tokens -/

/-- A container at a depth: one that is too deep cannot be read. -/
def atDepth (depth : Nat) (node : Node) : Node :=
  if depth ≤ maxDepth then node else flawed .container .malformed node.flaw?

/-- The name of a member at the start of some tokens, and the tokens after it unless the text
breaks.  Only a string is a name. -/
def name : List Token → Node × Option (List Token)
  | [] => (flawed .absent .truncated (some .truncated), none)
  | .string s :: rest => (string s, some rest)
  | .unfit true :: rest => (flawed .quoted .malformed none, some rest)
  | .unfit false :: _ => (flawed .bare .malformed none, none)
  | .broken true read skip :: _ => (flawed .quoted read (some skip), none)
  | .broken false read skip :: _ => (flawed .bare read (some skip), none)
  | .null :: _ => (null, none)
  | .bool b :: _ => (bool b, none)
  | .number n :: _ => (number n, none)
  | .mark .openArray :: _ => (array [] none, none)
  | .mark .openObject :: _ => (object [] none, none)
  | .mark _ :: _ => (flawed .absent .malformed (some .malformed), none)

mutual

/-- The value at the start of some tokens, and the tokens after it unless the text breaks.  The
fuel bounds the steps, the depth is that of the containers around. -/
def value : Nat → Nat → List Token → Node × Option (List Token)
  | 0, _, _ => (flawed .absent .truncated (some .truncated), none)
  | fuel + 1, depth, tokens =>
    match tokens with
    | [] => (flawed .absent .truncated (some .truncated), none)
    | .null :: rest => (null, some rest)
    | .bool b :: rest => (bool b, some rest)
    | .number n :: rest => (number n, some rest)
    | .string s :: rest => (string s, some rest)
    | .unfit quoted :: rest =>
      (flawed (if quoted then .quoted else .bare) .malformed none, some rest)
    | .broken quoted read skip :: _ =>
      (flawed (if quoted then .quoted else .bare) read (some skip), none)
    | .mark .openArray :: .mark .closeArray :: rest =>
      (atDepth (depth + 1) (array [] none), some rest)
    | .mark .openArray :: rest =>
      let (items, stop, rest) := items fuel (depth + 1) rest
      (atDepth (depth + 1) (array items stop), rest)
    | .mark .openObject :: .mark .closeObject :: rest =>
      (atDepth (depth + 1) (object [] none), some rest)
    | .mark .openObject :: rest =>
      let (members, stop, rest) := members fuel (depth + 1) rest
      (atDepth (depth + 1) (object members stop), rest)
    | .mark _ :: _ => (flawed .absent .malformed (some .malformed), none)

/-- One item and all that follow it in an array. -/
def items : Nat → Nat → List Token → List Node × Option Flaw × Option (List Token)
  | 0, _, _ => ([], some .truncated, none)
  | fuel + 1, depth, tokens =>
    match value fuel depth tokens with
    | (item, none) => ([item], none, none)
    | (item, some []) => ([item], some .truncated, none)
    | (item, some (.mark .closeArray :: rest)) => ([item], none, some rest)
    | (item, some (.mark .comma :: rest)) =>
      let (more, stop, rest) := items fuel depth rest
      (item :: more, stop, rest)
    | (item, some _) => ([item], some .malformed, none)

/-- One member and all that follow it in an object. -/
def members : Nat → Nat → List Token → List (Node × Node) × Option Flaw × Option (List Token)
  | 0, _, _ => ([], some .truncated, none)
  | fuel + 1, depth, tokens =>
    match name tokens with
    | (key, none) => ([(key, flawed .absent .malformed (some .malformed))], none, none)
    | (key, some []) => ([(key, flawed .absent .truncated (some .truncated))], none, none)
    | (key, some (.mark .colon :: tokens)) =>
      match value fuel depth tokens with
      | (item, none) => ([(key, item)], none, none)
      | (item, some []) => ([(key, item)], some .truncated, none)
      | (item, some (.mark .closeObject :: rest)) => ([(key, item)], none, some rest)
      | (item, some (.mark .comma :: rest)) =>
        let (more, stop, rest) := members fuel depth rest
        ((key, item) :: more, stop, rest)
      | (item, some _) => ([(key, item)], some .malformed, none)
    | (key, some _) => ([(key, flawed .absent .malformed (some .malformed))], none, none)

end

/-- The tree of some tokens, and whether tokens are left over.  Every second step of the fuel uses
up a token. -/
def ofTokens (tokens : List Token) : Node × Bool :=
  match value (2 * tokens.length + 2) 0 tokens with
  | (node, some (_ :: _)) => (node, true)
  | (node, _) => (node, false)

/-- The tree of a text, and whether anything follows it. -/
def ofText (text : String) : Node × Bool := ofTokens (scan text.toList)

/-! ## From documents -/

mutual

/-- A document as a tree. -/
def ofJson : Json → Node
  | .null => null
  | .bool b => bool b
  | .number n => number n
  | .string s => string s
  | .array items => array (ofItems items) none
  | .object members => object (ofMembers members) none

/-- Documents as trees. -/
def ofItems : List Json → List Node
  | [] => []
  | item :: rest => ofJson item :: ofItems rest

/-- The members of an object as trees. -/
def ofMembers : List (String × Json) → List (Node × Node)
  | [] => []
  | (name, value) :: rest => (string name, ofJson value) :: ofMembers rest

end

/-! ## Reading documents -/

/-- The name of a member, read. -/
def nameText : Node → Except Flaw String
  | string s => .ok s
  | flawed .quoted read _ => .error read
  | flawed .absent read _ => .error read
  | _ => .error .malformed

mutual

/-- A tree as a document, read in the order of the text. -/
def toJson : Node → Except Flaw Json
  | null => .ok .null
  | bool b => .ok (.bool b)
  | number n => .ok (.number n)
  | string s => .ok (.string s)
  | array items stop => do
    let items ← toItems items
    match stop with
    | none => .ok (.array items)
    | some flaw => .error flaw
  | object members stop => do
    let members ← toMembers members
    match stop with
    | none => .ok (.object (Members.ofList members))
    | some flaw => .error flaw
  | flawed _ read _ => .error read

/-- Trees as documents. -/
def toItems : List Node → Except Flaw (List Json)
  | [] => .ok []
  | item :: rest => do
    let item ← item.toJson
    let rest ← toItems rest
    .ok (item :: rest)

/-- The members of an object as documents. -/
def toMembers : List (Node × Node) → Except Flaw (List (String × Json))
  | [] => .ok []
  | (name, value) :: rest => do
    let name ← name.nameText
    let value ← value.toJson
    let rest ← toMembers rest
    .ok ((name, value) :: rest)

end

end Node

/-- A text as a document. -/
def ofText (text : String) : Except Flaw Json := do
  let (node, more) := Node.ofText text
  let json ← node.toJson
  if more then .error .malformed else .ok json

end Reporting.Json
