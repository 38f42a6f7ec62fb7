import Reporting.Field
import Reporting.Query.Error
import Reporting.Value.Cell

/-!
# Query/Slot — the cells of a record that a report needs

A report names its fields once.  Each gets a slot, and a record is read into a row with a value, or
none, for every slot.  From then on cells are found by position.
-/

namespace Reporting

/-- A field of a report and the position of its cells in rows. -/
structure Slot where
  index : Nat
  field : Field
  deriving DecidableEq, Repr

/-- A record as the values of some slots. -/
abbrev TypedRow := List (Option Value)

/-- The value of a slot in a row. -/
def TypedRow.at (row : TypedRow) (slot : Slot) : Option Value := (row[slot.index]?).join

namespace Slot

/-- Fields as slots, from a position on. -/
def number (start : Nat) : List Field → List Slot
  | [] => []
  | f :: rest => ⟨start, f⟩ :: number (start + 1) rest

/-- The slot of the field with an id. -/
def locate (slots : List Slot) (id : String) : Except ReportError Slot :=
  match slots.find? fun slot => slot.field.id == id with
  | some slot => .ok slot
  | none => .error (.unknownField id)

/-- What a record says about a field: its value if it has one, and whether the cell is malformed. -/
def read (record : Record) (f : Field) : Option Value × Bool :=
  match record.get? f.id with
  | none => (none, false)
  | some cell =>
    match Value.ofCell f.type cell with
    | .ok value => (value, false)
    | .error _ => (none, true)

/-- A record as the values of some slots, and the number of malformed cells among them. -/
def readRow (slots : List Slot) (record : Record) : TypedRow × Nat :=
  let cells := slots.map fun slot => read record slot.field
  (cells.map (·.1), (cells.filter (·.2)).length)

/-- Slots are numbered in order. -/
theorem getElem?_number (start : Nat) (fs : List Field) (i : Nat) :
    (number start fs)[i]? = fs[i]?.map fun f => ⟨start + i, f⟩ := by
  induction fs generalizing start i with
  | nil => simp [number]
  | cons f rest ih =>
    cases i with
    | zero => simp [number]
    | succ i =>
      simp only [number, List.getElem?_cons_succ, ih]
      congr 1
      funext g
      congr 1
      omega

/-- A row has a cell for every slot. -/
theorem length_readRow (slots : List Slot) (record : Record) :
    (readRow slots record).1.length = slots.length := by
  simp [readRow]

end Slot

end Reporting
