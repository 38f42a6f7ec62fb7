import Reporting.Query.Group

/-!
# Query/Reduce — aggregations

Each aggregation turns the values that a slot has in a group into one value, or none.  Only what is
there counts, except that `count` counts rows.
-/

namespace Reporting

/-- The smallest of some values, the first of equal ones. -/
def least? : List Value → Option Value
  | [] => none
  | v :: rest => some (rest.foldl (fun best x => if best.compare? x = some .gt then x else best) v)

/-- The largest of some values, the last of equal ones. -/
def greatest? : List Value → Option Value
  | [] => none
  | v :: rest => some (rest.foldl (fun best x => if best.compare? x = some .gt then best else x) v)

/-- The sum of some doubles, from the first to the last. -/
def sumOf (xs : List Float) : Float := xs.foldl (· + ·) Double.zero

/-- One value in the place of those that a cell has in the rows of a group. -/
def Reduction.apply (function : Reduction) (cells : List (Option Value)) : Option Value :=
  let present := cells.filterMap id
  let amounts := present.filterMap Value.amount?
  match function with
  | .count => some (.number (Double.ofNat cells.length))
  | .countDistinct =>
    some (.number (Double.ofNat (firstOccurrences (present.map fun v => KeyPart.of (some v))).length))
  | .sum => some (.number (sumOf amounts))
  | .avg =>
    if amounts.isEmpty then none
    else some (.number (sumOf amounts / Double.ofNat amounts.length))
  | .min => least? present
  | .max => greatest? present

/-- An aggregation on a slot. -/
structure SlotReduction where
  slot : Slot
  function : Reduction
  target : String
  deriving DecidableEq, Repr

namespace SlotReduction

/-- The value of an aggregation over some rows. -/
def value (a : SlotReduction) (members : List TypedRow) : Option Value :=
  a.function.apply (members.map fun row => row.at a.slot)

/-- Checks the aggregations of a definition in order, given the names of columns that are taken. -/
def compile (slots : List Slot) (taken : List String) :
    List Aggregation → Except ReportError (List SlotReduction)
  | [] => .ok []
  | a :: rest => do
    let slot ← Slot.locate slots a.fieldId
    if a.target ∈ taken then .error (.duplicateColumn a.target)
    else if a.function.needsNumeric && !slot.field.type.isNumeric then
      .error (.invalidTarget a.target slot.field.id a.function slot.field.type)
    else do
      let more ← compile slots (a.target :: taken) rest
      .ok (⟨slot, a.function, a.target⟩ :: more)

end SlotReduction

end Reporting
