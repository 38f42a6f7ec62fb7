import Reporting.Definition.Wire
import Reporting.Export
import Reporting.Run.Engine

/-!
# Schedule — reports that run again and again

What a scheduler keeps: the definition, how often it runs, who gets the outcome and in which format.
The identity of a scheduled report is the start of the hash of its canonical text.
-/

namespace Reporting

/-- How often a report runs. -/
inductive Cadence
  | hourly
  | daily
  | weekly
  | monthly
  deriving DecidableEq, Repr

namespace Cadence

/-- All cadences. -/
def all : List Cadence := [hourly, daily, weekly, monthly]

/-- The name of a cadence. -/
def name : Cadence → String
  | hourly => "hourly"
  | daily => "daily"
  | weekly => "weekly"
  | monthly => "monthly"

/-- A cadence, decoded. -/
def decode : Json.Decoder Cadence := Json.Decode.oneOf all name

end Cadence

/-- A report that runs again and again. -/
structure ScheduledReport where
  definition : Definition
  cadence : Cadence
  recipients : List String := []
  exportFormat : ExportFormat
  deriving BEq

namespace ScheduledReport

/-- A scheduled report as a document. -/
def json (s : ScheduledReport) : Json :=
  .object [("definition", s.definition.json), ("cadence", .string s.cadence.name),
    ("recipients", stringsJson s.recipients), ("exportFormat", .string s.exportFormat.name)]

/-- The members of a scheduled report. -/
def shape : Json.Shape ScheduledReport where
  start := ⟨{}, .hourly, [], .pdf⟩
  slots := [
    .mandatory "definition" Definition.decode fun x s => { s with definition := x },
    .mandatory "cadence" Cadence.decode fun x s => { s with cadence := x },
    .mandatory "recipients" (Json.Decode.list Json.Decode.string) fun x s =>
      { s with recipients := x },
    .mandatory "exportFormat" ExportFormat.decode fun x s => { s with exportFormat := x }]

/-- A scheduled report, decoded. -/
def decode : Json.Decoder ScheduledReport := shape.decode

/-- Adds a recipient. -/
def addRecipient (s : ScheduledReport) (recipient : String) : ScheduledReport :=
  { s with recipients := s.recipients ++ [recipient] }

/-- Checks the definition, as a run would. -/
def validate (s : ScheduledReport) (r : Registry) : Except ReportError Unit :=
  (Plan.ofDefinition r s.definition).map fun _ => ()

/-- The canonical text of a scheduled report. -/
def canonical (s : ScheduledReport) : String := s.json.compact

/-- What tells scheduled reports of different content apart. -/
def id (s : ScheduledReport) : String := abbreviate s.json.hash 16

end ScheduledReport

end Reporting
