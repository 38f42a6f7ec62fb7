import Reporting.Definition.Wire
import Reporting.Service.Api
import Reporting.Service.MediaType
import Reporting.Service.Target

/-!
# Service/Router — requests by method and path

There are two endpoints, one that lists fields and one that runs a report, each at one path with one
method.  A request that asks only for the headers of a list is answered like one for the list, with
the body left out, and a request for the methods that are allowed is answered anywhere.
-/

namespace Reporting

/-- A request. -/
structure Request where
  method : String
  target : String
  contentType : Option String := none
  body : String := ""
  deriving DecidableEq, Repr

/-- An answer. -/
structure Response where
  status : Nat
  body : Option Json := none

/-- What the records that are served come from. -/
inductive Supply
  /-- A source that yields its items, or fails. -/
  | ready (source : Except SourceError (List Item))
  /-- A source that yields nothing before the time for a request is over. -/
  | stalled
  /-- A source that breaks down when it is opened. -/
  | broken (reason : String)

/-- What is served. -/
structure Service where
  engine : Engine
  supply : Supply

/-- The endpoints. -/
inductive Endpoint
  | fields
  | execute
  deriving DecidableEq, Repr

namespace Endpoint

/-- The path of an endpoint. -/
def path : Endpoint → String
  | fields => "/reports/fields"
  | execute => "/reports/execute"

/-- The endpoint with a path. -/
def ofPath? (path : String) : Option Endpoint := [fields, execute].find? fun e => e.path == path

/-- The methods of an endpoint. -/
def methods : Endpoint → List String
  | fields => ["GET", "HEAD"]
  | execute => ["POST"]

end Endpoint

namespace Service

/-- The largest body that is read, in bytes. -/
def maxBody : Nat := 2 * 1024 * 1024

/-- An answer that says what went wrong. -/
def refuse (e : ApiError) : Response := ⟨e.status, some e.body.json⟩

/-- Lists fields.  A query may name one entity, but not two. -/
def listFields (s : Service) (target : Target) : Response :=
  let list (entity : Option String) : Response :=
    ⟨200, some (.array ((s.engine.registry.fieldsOf entity).map (·.json)))⟩
  match target.values "entity" with
  | [] => list none
  | [entity] => list (some entity)
  | _ => ⟨400, none⟩

/-- The definition in the body of a request. -/
def definitionOf (r : Request) : Except ApiError Definition :=
  if !(r.contentType.any MediaType.json?) then
    .error (.malformedDefinition "the body is not declared to be JSON")
  else if maxBody < Text.byteSize r.body.toList then
    .error (.malformedDefinition "the body is too long")
  else
    match Json.decodeText Definition.decode r.body with
    | .ok d => .ok d
    | .error _ => .error (.malformedDefinition "the body is not a definition")

/-- Runs a checked or unchecked definition on what is served.  A definition that does not hold is
refused before the records are asked for. -/
def run (s : Service) (d : Definition) : Except ApiError Report :=
  match s.supply with
  | .ready source => runReport s.engine d source .clear
  | .stalled =>
    match s.engine.validate d with
    | .error e => .error (.ofReportError e)
    | .ok _ => .error (.ofReportError .cancelled)
  | .broken reason =>
    match s.engine.validate d with
    | .error e => .error (.ofReportError e)
    | .ok _ => .error (.internal reason)

/-- Runs the report in a request. -/
def execute (s : Service) (r : Request) : Response :=
  match definitionOf r with
  | .error e => refuse e
  | .ok d =>
    match s.run d with
    | .error e => refuse e
    | .ok report => ⟨200, some report.json⟩

/-- Answers a request. -/
def answer (s : Service) (r : Request) : Response :=
  if r.method = "OPTIONS" then ⟨200, none⟩
  else
    let target := Target.ofText r.target
    match Endpoint.ofPath? target.path with
    | none => ⟨404, none⟩
    | some endpoint =>
      if r.method ∉ endpoint.methods then ⟨405, none⟩
      else
        match endpoint with
        | .fields =>
          let response := s.listFields target
          if r.method = "HEAD" then { response with body := none } else response
        | .execute => s.execute r

end Service

end Reporting
