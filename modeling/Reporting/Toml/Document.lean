import Reporting.Json.Decode
import Reporting.Toml.Scalar

/-!
# Toml/Document — reading configuration documents

A document is a sequence of lines: headers, keys with values, comments, and nothing.  A header
begins a table, which is put into its place in the document when the next one begins.
-/

namespace Reporting.Toml

open Text (Reader literal)

/-! ## Keys -/

/-- The characters of keys without quotes. -/
def isKeyChar (c : Char) : Bool := c.isAlphanum || c = '_' || c = '-'

/-- One part of a key. -/
def simpleKey : Reader String := fun cs =>
  match cs with
  | [] => none
  | c :: rest =>
    if c = '"' ∨ c = '\'' then
      (lineString c (rest.length + 1) rest).map fun (s, rest) => (String.ofList s, rest)
    else
      let key := cs.takeWhile isKeyChar
      if key.isEmpty then none else some (String.ofList key, cs.drop key.length)

/-- A key: parts between points, of which the last stands by itself.  White space around the parts
counts for nothing. -/
def dottedKey : Nat → Reader (List String × String)
  | 0, _ => none
  | fuel + 1, cs => do
    let (key, cs) ← simpleKey (skipWhite cs)
    match skipWhite cs with
    | '.' :: rest => do
      let ((path, last), rest) ← dottedKey fuel rest
      some ((key :: path, last), rest)
    | rest => some (([], key), rest)

/-- The path and the last part of a key. -/
def key : Reader (List String × String) := fun cs => dottedKey (cs.length + 1) cs

/-! ## Values -/

/-- A text after a comment at its start.  A comment goes to the end of its line. -/
def skipComment (cs : List Char) : List Char :=
  match cs with
  | '#' :: rest => rest.dropWhile isPlain
  | cs => cs

/-- A text after white space, comments and line ends; the fuel bounds their number. -/
def skipLines : Nat → List Char → List Char
  | 0, cs => cs
  | fuel + 1, cs =>
    let cs := skipComment (skipWhite cs)
    match newline cs with
    | some ((), rest) => skipLines fuel rest
    | none => cs

/-- How deep arrays and inline tables may be nested. -/
def maxDepth : Nat := 80

mutual

/-- A value.  The depth is that of the arrays and inline tables that may still be entered. -/
def value : Nat → Nat → Reader Toml
  | 0, _, _ => none
  | fuel + 1, depth, cs =>
    match cs with
    | [] => none
    | c :: rest =>
      if c = '"' ∨ c = '\'' then (quotedString c rest).map fun (s, rest) => (string s, rest)
      else if c = '[' then
        if depth = 0 then none
        else (arrayItems fuel (depth - 1) rest).map fun (items, rest) => (array items, rest)
      else if c = '\x7b' then
        if depth = 0 then none
        else
          match skipWhite rest with
          | '\x7d' :: rest => some (table .inline [], rest)
          | rest =>
            (inlineEntries fuel (depth - 1) (.new .inline) rest).map fun (t, rest) =>
              (t.value, rest)
      else bareValue cs

/-- The items of an array and what closes it.  A comma may follow the last one. -/
def arrayItems : Nat → Nat → Reader (List Toml)
  | 0, _, _ => none
  | fuel + 1, depth, cs =>
    match skipLines cs.length cs with
    | ']' :: rest => some ([], rest)
    | cs => do
      let (item, cs) ← value fuel depth cs
      match skipLines cs.length cs with
      | ',' :: rest => do
        let (items, rest) ← arrayItems fuel depth rest
        some (item :: items, rest)
      | ']' :: rest => some ([item], rest)
      | _ => none

/-- The entries of an inline table, after those it has, and what closes it. -/
def inlineEntries : Nat → Nat → Table → Reader Table
  | 0, _, _, _ => none
  | fuel + 1, depth, t, cs => do
    let ((path, last), cs) ← key cs
    let ((), cs) ← literal '=' cs
    let (v, cs) ← value fuel depth (skipWhite cs)
    let t ← t.addEntry path last v
    match skipWhite cs with
    | ',' :: rest => inlineEntries fuel depth t rest
    | '\x7d' :: rest => some (t, rest)
    | _ => none

end

/-! ## Documents -/

/-- What a header announces. -/
structure Header where
  path : List String
  last : String
  /-- Whether the table is one of an array of tables. -/
  ofMany : Bool

/-- A document that is being read: what is in place, and the table that is being filled. -/
structure Draft where
  root : Table
  header : Option Header
  current : Table

namespace Draft

/-- The document without lines. -/
def start : Draft := ⟨.new .header, none, .new .header⟩

/-- Puts the table that is being filled into its place. -/
def close (d : Draft) : Option Table :=
  match d.header with
  | none => some d.current
  | some h =>
    Table.descend false (fun parent =>
      if h.ofMany then
        match parent.get? h.last with
        | none => some (parent.set h.last (.tables [d.current.value]))
        | some (.tables items) => some (parent.set h.last (.tables (items ++ [d.current.value])))
        | some _ => none
      else some (parent.set h.last d.current.value)) h.path d.root

/-- Begins the table of a header.  One that was only implied so far keeps what it has; any other
may not be there yet. -/
def enter (root : Table) (h : Header) : Option Draft :=
  if h.ofMany then some ⟨root, some h, .new .header⟩
  else do
    let root ← Table.descend false some h.path root
    let child := (h.path.foldl (fun (t : Option Table) key =>
      match t.bind fun t => t.get? key with
      | some (.table kind entries) => some ⟨kind, entries⟩
      | some (.tables items) =>
        match items.getLast? with
        | some (.table kind entries) => some ⟨kind, entries⟩
        | _ => none
      | _ => none) (some root)).bind fun parent => parent.get? h.last
    match child with
    | none => some ⟨root, some h, .new .header⟩
    | some (.table .implied entries) => some ⟨root, some h, ⟨.header, entries⟩⟩
    | some _ => none

/-- Begins a table, after putting the one before into its place. -/
def next (d : Draft) (h : Header) : Option Draft := do
  let root ← d.close
  enter root h

/-- Adds an entry to the table that is being filled. -/
def add (d : Draft) (path : List String) (last : String) (v : Toml) : Option Draft :=
  (d.current.addEntry path last v).map fun current => { d with current }

end Draft

/-- The rest of a line that has to be blank or a comment, and its end. -/
def lineEnd : Reader Unit := fun cs =>
  match skipComment (skipWhite cs) with
  | [] => some ((), [])
  | cs => newline cs

/-- A header, after its first bracket. -/
def header : Reader Header := fun cs =>
  match cs with
  | '[' :: rest => do
    let ((path, last), rest) ← key rest
    let ((), rest) ← literal ']' rest
    let ((), rest) ← literal ']' rest
    some (⟨path, last, true⟩, rest)
  | cs => do
    let ((path, last), rest) ← key cs
    let ((), rest) ← literal ']' rest
    some (⟨path, last, false⟩, rest)

/-- Reads lines into a draft; the fuel bounds their number. -/
def readLines : Nat → Draft → List Char → Option Draft
  | 0, d, cs => if cs.isEmpty then some d else none
  | fuel + 1, d, cs =>
    match skipWhite cs with
    | [] => some d
    | '[' :: rest => do
      let (h, rest) ← header rest
      let d ← d.next h
      let ((), rest) ← lineEnd rest
      readLines fuel d rest
    | c :: rest =>
      match lineEnd (c :: rest) with
      | some ((), rest) => readLines fuel d rest
      | none => do
        let ((path, last), cs) ← key (c :: rest)
        let ((), cs) ← literal '=' cs
        let (v, cs) ← value (2 * cs.length + 2) maxDepth (skipWhite cs)
        let d ← d.add path last v
        let ((), cs) ← lineEnd cs
        readLines fuel d cs

/-- A text without the mark that may stand at its start to tell its encoding. -/
def skipByteOrderMark : List Char → List Char
  | '\uFEFF' :: rest => rest
  | cs => cs

/-- A text as a configuration document. -/
def ofText? (text : String) : Option Toml := do
  let cs := skipByteOrderMark text.toList
  let d ← readLines (cs.length + 1) .start cs
  let root ← d.close
  some root.value

/-! ## Decoding -/

/-- A number as a tree.  One that JSON has no place for can be passed over and not be read. -/
def numberNode : Json → Json.Node
  | .number n => .number n
  | _ => .flawed .bare .malformed none

mutual

/-- A document as a tree to decode.  A date is an object whose only member no data has. -/
def node : Toml → Json.Node
  | string s => .string s
  | integer n => numberNode (.ofInt n)
  | float x => numberNode (.ofFloat x)
  | bool b => .bool b
  | datetime s => .object [(.string "$datetime", .string s)] none
  | array items => .array (nodes items) none
  | table _ entries => .object (entryNodes entries) none
  | tables items => .array (nodes items) none

/-- Values as trees. -/
def nodes : List Toml → List Json.Node
  | [] => []
  | item :: rest => node item :: nodes rest

/-- Entries as members of a tree. -/
def entryNodes : List (String × Toml) → List (Json.Node × Json.Node)
  | [] => []
  | (key, v) :: rest => (.string key, node v) :: entryNodes rest

end

/-- Decodes the whole of a configuration text.  The outcome tells only whether it can be. -/
def decodeText? {α : Type} (decode : Json.Decoder α) (text : String) : Option α := do
  let document ← ofText? text
  match decode .configuration document.node with
  | .ok a => some a
  | .error _ => none

end Reporting.Toml
