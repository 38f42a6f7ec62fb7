import Reporting.Run.Assembly
import Reporting.Run.Stage

/-!
# Run/Engine — running reports

A run checks its definition, opens its source, reads the records one by one, and assembles the
report.  Nothing is opened for a definition that is wrong or a run that has been called off before
it starts.  Records that pass the filters are held in memory, at most as many as the engine allows.

`Engine.execute` reads a source whose items are there; `Engine.executeStream` takes them as they
arrive.
-/

namespace Reporting

/-- What runs reports: the fields there are and how many records may be held. -/
structure Engine where
  registry : Registry
  maxWorkingSet : Option Nat := none

/-- What came of a run: its outcome, how often the source was opened and how many items it
yielded. -/
structure Run where
  outcome : Except ReportError Report
  opened : Nat
  pulled : Nat

/-- What has been read so far. -/
structure Intake where
  /-- The rows that passed the filters, the latest first. -/
  reversed : List TypedRow := []
  skipped : Nat := 0
  malformed : Nat := 0
  pulled : Nat := 0

namespace Intake

/-- The rows that passed the filters. -/
def rows (s : Intake) : List TypedRow := s.reversed.reverse

/-- Whether no further record may be held. -/
def isFull (s : Intake) : Option Nat → Bool
  | some bound => bound ≤ s.reversed.length
  | none => false

/-- Takes in an item.  A record that passes the filters when no more may be held ends the run. -/
def accept (p : Plan) (bound : Option Nat) (s : Intake) : Item → Except ReportError Intake
  | .malformed _ => .ok { s with skipped := s.skipped + 1, pulled := s.pulled + 1 }
  | .record r =>
    let (row, bad) := Slot.readRow p.slots r
    if !p.accepts row then
      .ok { s with malformed := s.malformed + bad, pulled := s.pulled + 1 }
    else if s.isFull bound then .error (.workingSetExceeded (bound.getD 0))
    else
      .ok { s with
        reversed := row :: s.reversed, malformed := s.malformed + bad, pulled := s.pulled + 1 }

/-- Takes in items until they end or the run does, and tells how many were taken. -/
def acceptAll (p : Plan) (bound : Option Nat) (s : Intake) :
    List Item → Except ReportError Intake × Nat
  | [] => (.ok s, s.pulled)
  | item :: rest =>
    match s.accept p bound item with
    | .error e => (.error e, s.pulled + 1)
    | .ok s => acceptAll p bound s rest

end Intake

/-- Items as they arrive. -/
inductive Stream
  | done
  | next (item : Item) (rest : Stream)

namespace Stream

/-- Items that are all there. -/
def ofList : List Item → Stream
  | [] => done
  | item :: rest => next item (ofList rest)

/-- The items in the order in which they arrive. -/
def toList : Stream → List Item
  | done => []
  | next item rest => item :: rest.toList

theorem toList_ofList (items : List Item) : (ofList items).toList = items := by
  induction items with
  | nil => rfl
  | cons item rest ih => simp [ofList, toList, ih]

end Stream

/-- Takes in a stream until it ends or the run does, and tells how many items were taken. -/
def Intake.drain (p : Plan) (bound : Option Nat) (s : Intake) :
    Stream → Except ReportError Intake × Nat
  | .done => (.ok s, s.pulled)
  | .next item rest =>
    match s.accept p bound item with
    | .error e => (.error e, s.pulled + 1)
    | .ok s => drain p bound s rest

namespace Engine

/-- Checks a definition. -/
def validate (e : Engine) (d : Definition) : Except ReportError Plan := Plan.ofDefinition e.registry d

/-- What comes of a run that has read its records: the report, unless it is called off before one
of the stages that are left. -/
def conclude (p : Plan) (token : Token) (s : Intake) : Except ReportError Report :=
  if Stage.afterReading.any fun stage => token ⟨stage, 1, s.pulled⟩ then .error .cancelled
  else .ok (p.report s.rows s.skipped s.malformed)

/-- Runs a checked definition on a source, given how its items are taken in. -/
def runPlan {σ : Type} (p : Plan) (source : Except SourceError σ)
    (takeIn : σ → Except ReportError Intake × Nat) (token : Token) : Run :=
  if token ⟨.filtering, 0, 0⟩ then ⟨.error .cancelled, 0, 0⟩
  else
    match source with
    | .error cause => ⟨.error (.sourceUnavailable cause), 1, 0⟩
    | .ok items =>
      match takeIn items with
      | (.error e, pulled) => ⟨.error e, 1, pulled⟩
      | (.ok s, pulled) => ⟨conclude p token s, 1, pulled⟩

/-- Runs a definition on a source whose items are there. -/
def execute (e : Engine) (d : Definition) (source : Except SourceError (List Item))
    (token : Token) : Run :=
  match e.validate d with
  | .error error => ⟨.error error, 0, 0⟩
  | .ok p => runPlan p source (Intake.acceptAll p e.maxWorkingSet {}) token

/-- Runs a definition on items as they arrive. -/
def executeStream (e : Engine) (d : Definition) (source : Except SourceError Stream)
    (token : Token) : Run :=
  match e.validate d with
  | .error error => ⟨.error error, 0, 0⟩
  | .ok p => runPlan p source (Intake.drain p e.maxWorkingSet {}) token

end Engine

end Reporting
