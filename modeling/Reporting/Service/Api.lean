import Reporting.Run.Engine

/-!
# Service/Api — requests and their answers

What the two endpoints do, whatever carries the requests: list fields, and run a report.  A request
that fails has a status and a body with the code and the text of the error.
-/

namespace Reporting

/-- The body of an answer to a request that failed. -/
structure ErrorBody where
  code : String
  message : String
  deriving DecidableEq, Repr

/-- A body as a document. -/
def ErrorBody.json (b : ErrorBody) : Json :=
  .object [("code", .string b.code), ("message", .string b.message)]

/-- A request that failed. -/
structure ApiError where
  status : Nat
  body : ErrorBody
  deriving DecidableEq, Repr

namespace ApiError

/-- The body of a request is no definition. -/
def malformedDefinition (message : String) : ApiError := ⟨400, "MalformedDefinition", message⟩

/-- Something went wrong inside. -/
def internal (message : String) : ApiError := ⟨500, "Internal", message⟩

end ApiError

/-- The status of the answer to a request that failed. -/
def ReportError.status : ReportError → Nat
  | workingSetExceeded _ => 413
  | sourceUnavailable _ => 503
  | cancelled => 504
  | _ => 400

/-- The answer to a request that failed. -/
def ApiError.ofReportError (e : ReportError) : ApiError := ⟨e.status, e.code, e.message⟩

/-- What becomes of a request to run a report. -/
def runReport (e : Engine) (d : Definition) (source : Except SourceError (List Item))
    (token : Token) : Except ApiError Report :=
  match (e.execute d source token).outcome with
  | .ok report => .ok report
  | .error error => .error (.ofReportError error)

end Reporting
