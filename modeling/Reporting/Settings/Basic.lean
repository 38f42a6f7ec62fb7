import Reporting.Json.Decode

/-!
# Settings/Basic — how the program is set up

Settings come in sections.  Whatever a configuration leaves out keeps its default; what it says is
checked, since a bound of zero would let no run through.
-/

namespace Reporting

/-- A value that a setting may not have. -/
inductive InvalidSetting
  | noTimeForRequests
  | noRoomForRecords
  deriving DecidableEq, Repr

/-- What is said about a value that a setting may not have. -/
def InvalidSetting.message : InvalidSetting → String
  | noTimeForRequests => "server.request_timeout_secs must be positive"
  | noRoomForRecords => "executor.max_working_set must be positive"

/-- Why there are no settings, or no path that they lead to. -/
inductive SettingsError
  /-- There is no such file. -/
  | notFound (path : String)
  /-- The file cannot be read. -/
  | unreadable (reason : String)
  /-- The file does not describe settings. -/
  | unparsable (reason : String)
  /-- A path refers to a variable that is not set. -/
  | missingVariable (name : String)
  /-- A setting has a value that it may not have. -/
  | invalid (cause : InvalidSetting)
  deriving DecidableEq, Repr

namespace SettingsError

/-- The name of the kind of an error. -/
def kind : SettingsError → String
  | notFound _ => "FileNotFound"
  | unreadable _ => "ReadError"
  | unparsable _ => "ParseError"
  | missingVariable _ => "MissingEnvVar"
  | invalid _ => "InvalidConfig"

/-- What is said about an error. -/
def message : SettingsError → String
  | notFound path => s!"Config file not found: {path}"
  | unreadable reason => s!"Failed to read config file: {reason}"
  | unparsable reason => s!"Failed to parse config file: {reason}"
  | missingVariable name => s!"Missing environment variable: {name}"
  | invalid cause => s!"Invalid configuration: {cause.message}"

end SettingsError

/-- How the program is set up. -/
structure Settings where
  host : String := "127.0.0.1"
  port : Nat := 8080
  /-- How long a request may take, in seconds. -/
  timeout : Nat := 30
  /-- Where the registry is; the path may refer to variables. -/
  registryPath : Option String := none
  /-- Where the records are; the path may refer to variables. -/
  sourcePath : Option String := none
  /-- How many records that pass the filters a run may hold. -/
  maxWorkingSet : Option Nat := none
  /-- What is logged. -/
  logLevel : String := "info"
  deriving DecidableEq, Repr

namespace Settings

/-- The address that is served. -/
def address (s : Settings) : String := s!"{s.host}:{s.port}"

/-! ## Documents -/

/-- A text or `null`. -/
def textOrNull : Option String → Json
  | some s => .string s
  | none => .null

/-- Settings as a document. -/
def json (s : Settings) : Json :=
  .object [
    ("server", .object [("host", .string s.host), ("port", .ofNat s.port),
      ("request_timeout_secs", .ofNat s.timeout)]),
    ("registry", .object [("path", textOrNull s.registryPath)]),
    ("source", .object [("path", textOrNull s.sourcePath)]),
    ("executor", .object [("max_working_set",
      match s.maxWorkingSet with
      | some n => .ofNat n
      | none => .null)]),
    ("logging", .object [("level", .string s.logLevel)])]

open Json.Decode (string optional natural count)

/-- A section: a table of settings, each of which may be absent. -/
def sectionSlot (name : String) (slots : List (Json.Slot Settings)) : Json.Slot Settings :=
  ⟨name, false, fun origin node s => (Json.Shape.mk s slots).decode origin node⟩

/-- The sections of settings. -/
def shape : Json.Shape Settings where
  start := {}
  slots := [
    sectionSlot "server" [
      .optional "host" string fun x s => { s with host := x },
      .optional "port" (natural UInt16.size) fun x s => { s with port := x },
      .optional "request_timeout_secs" count fun x s => { s with timeout := x }],
    sectionSlot "registry" [
      .optional "path" (optional string) fun x s => { s with registryPath := x }],
    sectionSlot "source" [
      .optional "path" (optional string) fun x s => { s with sourcePath := x }],
    sectionSlot "executor" [
      .optional "max_working_set" (optional count) fun x s => { s with maxWorkingSet := x }],
    sectionSlot "logging" [
      .optional "level" string fun x s => { s with logLevel := x }]]

/-- Settings, decoded. -/
def decode : Json.Decoder Settings := shape.decode

/-! ## Checks -/

/-- The first setting with a value that it may not have. -/
def fault? (s : Settings) : Option InvalidSetting :=
  if s.timeout = 0 then some .noTimeForRequests
  else if s.maxWorkingSet = some 0 then some .noRoomForRecords
  else none

/-- **Settings without a fault have room** — for time and for at least one record. -/
theorem fault?_eq_none_iff {s : Settings} :
    s.fault? = none ↔ 0 < s.timeout ∧ s.maxWorkingSet ≠ some 0 := by
  simp only [fault?]
  split
  · simp_all
  · split <;> simp_all [Nat.pos_iff_ne_zero]

/-- Settings, unless one has a value that it may not have. -/
def checked (s : Settings) : Except SettingsError Settings :=
  match s.fault? with
  | some cause => .error (.invalid cause)
  | none => .ok s

end Settings

end Reporting
