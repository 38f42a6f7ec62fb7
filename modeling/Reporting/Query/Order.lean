import Reporting.Query.Slot

/-!
# Query/Order — sorting

Rows are sorted by several keys, the first of which counts most.  A key puts cells without a value
last, whichever its direction.  The values of an enum field go by the order in which the field
declares them; undeclared ones come after them, by code point.  Sorting is stable: rows that no key
tells apart stay in their order.
-/

namespace Reporting

/-- The last position of a string in a list. -/
def lastIndex? (s : String) : List String → Option Nat
  | [] => none
  | x :: rest =>
    match lastIndex? s rest with
    | some i => some (i + 1)
    | none => if x = s then some 0 else none

/-- A key to sort by. -/
structure SlotKey where
  slot : Slot
  direction : Direction
  deriving DecidableEq, Repr

namespace SlotKey

/-- The order of the values of an enum field, given the declared ones.  One declared twice goes by
its last place. -/
def compareDeclared (declared : List String) (a b : String) : Ordering :=
  match lastIndex? a declared, lastIndex? b declared with
  | some i, some j => compare i j
  | some _, none => .lt
  | none, some _ => .gt
  | none, none => compare a b

/-- The order of two values of a field. -/
def compareValues (f : Field) (a b : Value) : Ordering :=
  match f.type, a, b with
  | .enum, .enum a, .enum b => compareDeclared f.enumValues a b
  | _, a, b => (a.compare? b).getD .eq

/-- The order of two cells of a field in a direction. -/
def compareCells (f : Field) (direction : Direction) : Option Value → Option Value → Ordering
  | none, none => .eq
  | none, some _ => .gt
  | some _, none => .lt
  | some a, some b =>
    match direction with
    | .asc => compareValues f a b
    | .desc => (compareValues f a b).swap

/-- The order of two rows by a key. -/
def compareRows (key : SlotKey) (a b : TypedRow) : Ordering :=
  compareCells key.slot.field key.direction (a.at key.slot) (b.at key.slot)

/-- The key of a definition as a key on slots. -/
def ofSortKey (slots : List Slot) (key : SortKey) : Except ReportError SlotKey := do
  let slot ← Slot.locate slots key.fieldId
  if slot.field.sortable then .ok ⟨slot, key.direction⟩ else .error (.notSortable slot.field.id)

end SlotKey

/-- The first decision among several orders. -/
def firstDecision : List Ordering → Ordering
  | [] => .eq
  | o :: rest => o.then (firstDecision rest)

/-- The order of two rows by several keys. -/
def compareBy (keys : List SlotKey) (a b : TypedRow) : Ordering :=
  firstDecision (keys.map fun key => key.compareRows a b)

/-- Sorts stably by an order. -/
def sortBy {α : Type} (order : α → α → Ordering) (xs : List α) : List α :=
  xs.mergeSort fun a b => order a b != .gt

/-- Sorts rows by several keys. -/
def sortRows (keys : List SlotKey) (rows : List TypedRow) : List TypedRow :=
  if keys.isEmpty then rows else sortBy (compareBy keys) rows

end Reporting
