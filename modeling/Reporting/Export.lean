import Reporting.Report.Basic

/-!
# Export — reports as files

Of the formats a report can be asked for in, one is supported: JSON over several lines, with a line
feed at the end.
-/

namespace Reporting

/-- The formats of exported reports. -/
inductive ExportFormat
  | pdf
  | excel
  | csv
  | json
  deriving DecidableEq, Repr

namespace ExportFormat

/-- All formats. -/
def all : List ExportFormat := [pdf, excel, csv, json]

/-- The name of a format. -/
def name : ExportFormat → String
  | pdf => "PDF"
  | excel => "EXCEL"
  | csv => "CSV"
  | json => "JSON"

/-- The format that a name of any capitals means. -/
def ofName? (s : String) : Option ExportFormat := all.find? fun f => f.name == s.toUpper

/-- The media type of a document. -/
def contentType : ExportFormat → String
  | pdf => "application/pdf"
  | excel => "application/vnd.openxmlformats-officedocument.spreadsheetml.sheet"
  | csv => "text/csv"
  | json => "application/json"

/-- A format, decoded. -/
def decode : Json.Decoder ExportFormat := Json.Decode.oneOf all name

end ExportFormat

/-- A format that reports cannot be written in. -/
structure UnsupportedFormat where
  format : ExportFormat
  deriving DecidableEq, Repr

/-- What is said about a format that is not supported. -/
def UnsupportedFormat.message (e : UnsupportedFormat) : String :=
  s!"export format {e.format.name} is not supported"

/-- What writes reports in a format. -/
structure Exporter where
  format : ExportFormat
  write : Report → String

/-- What writes reports as JSON. -/
def Exporter.json : Exporter := ⟨.json, fun r => r.json.pretty ++ "\n"⟩

/-- What writes reports in a format, if the format is supported. -/
def Exporter.of : ExportFormat → Except UnsupportedFormat Exporter
  | .json => .ok json
  | format => .error ⟨format⟩

end Reporting
