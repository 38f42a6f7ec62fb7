import Reporting.Query.Slot
import Reporting.Text.Search

/-!
# Query/Condition — filters

A clause of a definition is checked against its field and becomes a condition on the value of a
slot: the operator has to go with the type of the field and the operand has to suit the operator.
Where there is no value only the question for null is answered with yes.
-/

namespace Reporting

/-- What is asked of a value. -/
inductive ValueTest
  | equals (x : Value)
  | notEquals (x : Value)
  | above (x : Value)
  | below (x : Value)
  | atLeast (x : Value)
  | atMost (x : Value)
  | between (low high : Value)
  | contains (s : String)
  | startsWith (s : String)
  | endsWith (s : String)
  | isIn (xs : List Value)
  | notIn (xs : List Value)

/-- What is asked of a cell, which may hold no value. -/
inductive CellTest
  | isNull
  | isNotNull
  | value (test : ValueTest)

/-- A condition on the cell of a slot. -/
structure Condition where
  slot : Slot
  test : CellTest

/-- Whether a value passes a test. -/
def ValueTest.holds (v : Value) : ValueTest → Bool
  | equals x => v.same x
  | notEquals x => !v.same x
  | above x => (v.compare? x).any (· == .gt)
  | below x => (v.compare? x).any (· == .lt)
  | atLeast x => (v.compare? x).any (· != .lt)
  | atMost x => (v.compare? x).any (· != .gt)
  | between low high => (v.compare? low).any (· != .lt) && (v.compare? high).any (· != .gt)
  | contains s => v.isTextWith (Text.occursIn s.toList)
  | startsWith s => v.isTextWith s.toList.isPrefixOf
  | endsWith s => v.isTextWith s.toList.isSuffixOf
  | isIn xs => xs.any v.same
  | notIn xs => !xs.any v.same

/-- Whether a cell passes a test. -/
def CellTest.holds (cell : Option Value) : CellTest → Bool
  | isNull => cell.isNone
  | isNotNull => cell.isSome
  | value test => cell.any test.holds

/-- Whether a row meets a condition. -/
def Condition.holds (row : TypedRow) (c : Condition) : Bool := c.test.holds (row.at c.slot)

namespace Condition

/-- Checks that a value is of the type of a field. -/
def checkType (f : Field) (v : Value) : Except ReportError Unit :=
  if v.type = f.type then .ok ()
  else .error (.invalidFilterValue f.id (.wrongType f.type v.type))

/-- The single value of a clause. -/
def single (f : Field) (c : Clause) : Except ReportError Value :=
  match c.value with
  | some (.one v) => do
    checkType f v
    .ok v
  | some (.many _) => .error (.invalidFilterValue f.id (.setForValue c.operator))
  | none => .error (.invalidFilterValue f.id (.noValue c.operator))

/-- Checks that values are of the type of a field, in order. -/
def checkTypes (f : Field) : List Value → Except ReportError Unit
  | [] => .ok ()
  | v :: rest => do
    checkType f v
    checkTypes f rest

/-- The set of values of a clause. -/
def set (f : Field) (c : Clause) : Except ReportError (List Value) :=
  match c.value with
  | some (.many vs) => do
    checkTypes f vs
    .ok vs
  | some (.one _) => .error (.invalidFilterValue f.id (.valueForSet c.operator))
  | none => .error (.invalidFilterValue f.id (.noSet c.operator))

/-- The text of a clause. -/
def textOperand (f : Field) (c : Clause) : Except ReportError String := do
  match ← single f c with
  | .text s => .ok s
  | other => .error (.invalidFilterValue f.id (.wrongType .text other.type))

/-- The upper end of a range. -/
def upperEnd (f : Field) (c : Clause) : Except ReportError Value :=
  match c.valueEnd with
  | some v => do
    checkType f v
    .ok v
  | none => .error (.invalidFilterValue f.id .noEnd)

/-- The test that a clause puts to the cells of a field that its operator goes with. -/
def operatorTest (f : Field) (c : Clause) : Except ReportError CellTest :=
  match c.operator with
  | .isNull => .ok .isNull
  | .isNotNull => .ok .isNotNull
  | .equals => (single f c).map fun x => .value (.equals x)
  | .notEquals => (single f c).map fun x => .value (.notEquals x)
  | .greaterThan => (single f c).map fun x => .value (.above x)
  | .lessThan => (single f c).map fun x => .value (.below x)
  | .greaterOrEqual => (single f c).map fun x => .value (.atLeast x)
  | .lessOrEqual => (single f c).map fun x => .value (.atMost x)
  | .between => do
    let low ← single f c
    let high ← upperEnd f c
    .ok (.value (.between low high))
  | .contains => (textOperand f c).map fun s => .value (.contains s)
  | .startsWith => (textOperand f c).map fun s => .value (.startsWith s)
  | .endsWith => (textOperand f c).map fun s => .value (.endsWith s)
  | .isIn => (set f c).map fun xs => .value (.isIn xs)
  | .notIn => (set f c).map fun xs => .value (.notIn xs)

/-- The test that a clause puts to the cells of a field. -/
def testOf (f : Field) (c : Clause) : Except ReportError CellTest :=
  if !f.filterable then .error (.notFilterable f.id)
  else if !c.operator.isLegal f.type then .error (.invalidOperator f.id f.type c.operator)
  else operatorTest f c

/-- The condition of a clause. -/
def ofClause (slots : List Slot) (c : Clause) : Except ReportError Condition := do
  let slot ← Slot.locate slots c.fieldId
  let test ← testOf slot.field c
  .ok ⟨slot, test⟩

end Condition

end Reporting
