/-!
# Toml/Basic — configuration documents

A TOML document is a table.  How a table came about decides whether it may be extended: a header
makes it once and for all, while a table that is only named on the way to another one can still be
given its own header, and one made by a dotted key can be extended by dotted keys.
-/

namespace Reporting

/-- How a table came about. -/
inductive Toml.TableKind
  /-- By a header, or as the document. -/
  | header
  /-- On the way to the table of a header. -/
  | implied
  /-- By a dotted key. -/
  | dotted
  /-- Between braces. -/
  | inline
  deriving DecidableEq, Repr

/-- A value of a configuration document. -/
inductive Toml
  | string (s : String)
  | integer (n : Int)
  | float (x : Float)
  | bool (b : Bool)
  | datetime (s : String)
  | array (items : List Toml)
  | table (kind : Toml.TableKind) (entries : List (String × Toml))
  /-- An array of tables, each with its own header. -/
  | tables (items : List Toml)

/-- A table of a configuration document. -/
structure Toml.Table where
  kind : Toml.TableKind
  entries : List (String × Toml)

namespace Toml.Table

/-- The table without entries. -/
def new (kind : TableKind) : Table := ⟨kind, []⟩

/-- The table as a value. -/
def value (t : Table) : Toml := .table t.kind t.entries

/-- The value of a key. -/
def get? (t : Table) (key : String) : Option Toml := t.entries.lookup key

/-- Gives a key a value, in the place it has or at the end. -/
def set (t : Table) (key : String) (value : Toml) : Table :=
  if (t.get? key).isSome then
    { t with entries := t.entries.map fun (k, old) => if k = key then (k, value) else (k, old) }
  else { t with entries := t.entries ++ [(key, value)] }

/-- Whether a table was never given entries of its own by a header or between braces. -/
def isOpen (t : Table) : Bool := t.kind = .implied || t.kind = .dotted

/-- Changes the table at the end of a path.  Tables that are not there yet are made on the way; an
array of tables leads to its last one.  Dotted keys do not enter tables that have a header. -/
def descend (dotted : Bool) (change : Table → Option Table) : List String → Table → Option Table
  | [], t => change t
  | key :: path, t =>
    match t.get? key with
    | none =>
      let child := new (if dotted then .dotted else .implied)
      (descend dotted change path child).map fun child => t.set key child.value
    | some (.table kind entries) =>
      let child : Table := ⟨kind, entries⟩
      if kind = .inline || (dotted && !child.isOpen) then none
      else (descend dotted change path child).map fun child => t.set key child.value
    | some (.tables items) =>
      match items.getLast? with
      | some (.table kind entries) =>
        let child : Table := ⟨kind, entries⟩
        if dotted && !child.isOpen then none
        else
          (descend dotted change path child).map fun child =>
            t.set key (.tables (items.dropLast ++ [child.value]))
      | _ => none
    | some _ => none

/-- Adds an entry to a table, given its key as a path and a last part.  Only a table made by dotted
keys takes entries from them, and a key has one value. -/
def addEntry (path : List String) (key : String) (value : Toml) (t : Table) : Option Table :=
  descend true (fun t =>
    if (t.kind = .dotted) = path.isEmpty then none
    else if (t.get? key).isSome then none
    else some (t.set key value)) path t

end Toml.Table

end Reporting
