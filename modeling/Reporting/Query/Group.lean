import Reporting.Query.Order

/-!
# Query/Group — grouping

Rows with equal values in the slots grouped by make a group.  Rows are taken one by one, and where
the group of a key is gets written down, so that no group is searched for.  Groups come in the order
of their first rows, unless sort keys name slots grouped by; then those keys decide, and only rows that they
do not tell apart go by first appearance.
-/

namespace Reporting

/-- What makes the values of two cells equal for grouping and counting: no value equals only no
value, and both zeros are one number. -/
inductive KeyPart
  | null
  | text (s : String)
  | number (bits : UInt64)
  | date (t : Time.Instant)
  | bool (b : Bool)
  | enum (s : String)
  deriving DecidableEq

/-- The key part of a cell. -/
def KeyPart.of : Option Value → KeyPart
  | none => null
  | some (.text s) => text s
  | some (.number x) => number (Double.unsignedZero x).toBits
  | some (.date t) => date t
  | some (.bool b) => bool b
  | some (.enum s) => enum s

/-- Rows with equal values in the slots grouped by. -/
structure RowGroup where
  /-- The values of the first row in the slots grouped by. -/
  key : List (Option Value)
  members : List TypedRow

namespace RowGroup

/-- The values of a row in some slots. -/
def keyOf (slots : List Slot) (row : TypedRow) : List (Option Value) := slots.map row.at

/-- What decides which group a row is in. -/
def partsOf (slots : List Slot) (row : TypedRow) : List KeyPart := (keyOf slots row).map KeyPart.of

/-- Adds a row at the end. -/
def add (row : TypedRow) (g : RowGroup) : RowGroup := { g with members := g.members ++ [row] }

end RowGroup

/-- Groups under way. -/
structure Grouping where
  /-- Where the group of a key is. -/
  places : List (List KeyPart × Nat) := []
  groups : List RowGroup := []

namespace Grouping

/-- The place of the group of a row.  A row of a new kind gets a group without rows at the end. -/
def place (slots : List Slot) (row : TypedRow) (s : Grouping) : Nat × Grouping :=
  let parts := RowGroup.partsOf slots row
  match s.places.lookup parts with
  | some place => (place, s)
  | none =>
    (s.groups.length,
      { places := (parts, s.groups.length) :: s.places
        groups := s.groups ++ [⟨RowGroup.keyOf slots row, []⟩] })

/-- Adds a row to its group. -/
def insert (slots : List Slot) (s : Grouping) (row : TypedRow) : Grouping :=
  let (place, s) := s.place slots row
  { s with groups := s.groups.modify place (RowGroup.add row) }

end Grouping

/-- The groups of some rows, in the order of their first rows. -/
def RowGroup.collect (slots : List Slot) (rows : List TypedRow) : List RowGroup :=
  (rows.foldl (Grouping.insert slots) {}).groups

/-- A sort key that names a slot grouped by, and the place of that slot in group keys. -/
structure GroupKey where
  place : Nat
  field : Field
  direction : Direction
  deriving DecidableEq, Repr

namespace GroupKey

/-- The order of two groups by a key. -/
def compareGroups (key : GroupKey) (a b : RowGroup) : Ordering :=
  SlotKey.compareCells key.field key.direction (a.key[key.place]?).join (b.key[key.place]?).join

/-- The sort keys that name slots grouped by. -/
def ofSort (groupBy : List Slot) (sort : List SlotKey) : List GroupKey :=
  sort.filterMap fun key =>
    (groupBy.findIdx? fun slot => slot.index == key.slot.index).map fun place =>
      ⟨place, key.slot.field, key.direction⟩

end GroupKey

/-- The groups of some rows, in order. -/
def groupRows (groupBy : List Slot) (order : List GroupKey) (rows : List TypedRow) :
    List RowGroup :=
  let groups := RowGroup.collect groupBy rows
  if order.isEmpty then groups
  else sortBy (fun a b => firstDecision (order.map fun key => key.compareGroups a b)) groups

end Reporting
