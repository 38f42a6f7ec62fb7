import Reporting.CommandLine.Arguments
import Reporting.Definition.Wire
import Reporting.Registry.File
import Reporting.Run.Engine
import Reporting.Settings.Load
import Reporting.Source.File

/-!
# CommandLine/Run — what the commands do

Each command reads its files, does its work and ends with a text for the one who called it, or with
a failure.  Of several things that are wrong the first counts, in the order in which the files are
needed: settings, registry, definition, records.
-/

namespace Reporting.CommandLine

/-- Why a command fails. -/
inductive Failure
  /-- There are no settings. -/
  | settings (cause : SettingsError)
  /-- The path of the registry leads nowhere. -/
  | registryPath (cause : SettingsError)
  /-- No registry is given. -/
  | noRegistry
  /-- There is no registry at the path given. -/
  | registry (path : String) (cause : RegistryError)
  /-- The fields of a registry cannot be listed. -/
  | listing (cause : Failure)
  /-- The file with the definition cannot be read. -/
  | unreadableDefinition (file reason : String)
  /-- The file holds no definition. -/
  | malformedDefinition (file reason : String)
  /-- The definition does not hold. -/
  | invalidDefinition (cause : ReportError)
  /-- The path of the records leads nowhere. -/
  | recordsPath (cause : SettingsError)
  /-- No records are given. -/
  | noRecords
  /-- The format is not supported. -/
  | format (cause : UnsupportedFormat)
  /-- The run failed. -/
  | run (cause : ReportError)
  deriving DecidableEq, Repr

/-- What is said about a failure. -/
def Failure.message : Failure → String
  | settings cause => s!"Error loading config: {cause.message}"
  | registryPath cause => cause.message
  | noRegistry => "no field registry given; pass --registry or set [registry] path"
  | registry path cause => s!"{path}: {cause.message}"
  | listing cause => s!"Error loading registry: {cause.message}"
  | unreadableDefinition file reason => s!"Error reading file '{file}': {reason}"
  | malformedDefinition file reason => s!"Invalid definition '{file}': {reason}"
  | invalidDefinition cause => s!"Validation error [{cause.code}]: {cause.message}"
  | recordsPath cause => s!"Error resolving record source: {cause.message}"
  | noRecords => "No record source given; pass --records or set [source] path"
  | format cause => cause.message
  | run cause => s!"Execution error [{cause.code}]: {cause.message}"

/-! ## Lists of fields -/

/-- A text filled up with spaces to a width. -/
def padded (width : Nat) (text : String) : String :=
  text ++ String.ofList (List.replicate (width - text.length) ' ')

/-- The line for a field. -/
def fieldLine (f : Field) : String :=
  let capabilities := ", ".intercalate f.capabilities
  s!"  {padded 24 f.id} {padded 8 f.type.name} {padded 12 f.entity} [{capabilities}]\n"

/-- The lines for fields. -/
def fieldLines (fields : List Field) : String :=
  if fields.isEmpty then "No fields registered.\n" else String.join (fields.map fieldLine)

/-! ## Files that commands need -/

variable {m : Type → Type} [Monad m]

/-- The registry at the path given, or where the settings say. -/
def loadRegistry (around : Surroundings m) (s : Settings) (given : Option String) :
    ExceptT Failure m Registry := do
  match ← ExceptT.lift (s.registryFile around given) with
  | .error e => throw (.registryPath e)
  | .ok none => throw .noRegistry
  | .ok (some path) =>
    match Registry.ofEntry path (← ExceptT.lift (around.look path)) with
    | .ok r => pure r
    | .error e => throw (.registry path e)

/-- The definition in a file. -/
def loadDefinition (around : Surroundings m) (file : String) : ExceptT Failure m Definition := do
  match ← ExceptT.lift (around.look file) with
  | .missing => throw (.unreadableDefinition file "no such file")
  | .unreadable reason => throw (.unreadableDefinition file reason)
  | .text content =>
    match Json.decodeText Definition.decode content with
    | .ok d => pure d
    | .error _ => throw (.malformedDefinition file "not a definition")

/-- The path of the records: the one given, or the one in the settings. -/
def recordsPath (around : Surroundings m) (s : Settings) (given : Option String) :
    ExceptT Failure m String := do
  match ← ExceptT.lift (s.sourceFile around given) with
  | .error e => throw (.recordsPath e)
  | .ok none => throw .noRecords
  | .ok (some path) => pure path

/-! ## Commands -/

/-- Lists fields. -/
def listFields (around : Surroundings m) (s : Settings) (registry : Option String)
    (entity : Option String) : ExceptT Failure m String := do
  match ← ExceptT.lift (loadRegistry around s registry).run with
  | .ok r => pure (fieldLines (r.fieldsOf entity))
  | .error e => throw (.listing e)

/-- Checks a definition. -/
def validate (around : Surroundings m) (s : Settings) (registry : Option String) (file : String) :
    ExceptT Failure m String := do
  let r ← loadRegistry around s registry
  let d ← loadDefinition around file
  match (⟨r, s.maxWorkingSet⟩ : Engine).validate d with
  | .ok _ => pure s!"OK: {file} is valid\n"
  | .error e => throw (.invalidDefinition e)

/-- Runs a definition. -/
def execute (around : Surroundings m) (s : Settings) (registry : Option String) (file : String)
    (records : Option String) (format : ExportFormat) : ExceptT Failure m String := do
  let r ← loadRegistry around s registry
  let d ← loadDefinition around file
  let path ← recordsPath around s records
  match Exporter.of format with
  | .error e => throw (.format e)
  | .ok exporter =>
    let entry ← ExceptT.lift (around.look path)
    let source := Item.ofEntry path (FileFormat.ofPath path) entry
    match ((⟨r, s.maxWorkingSet⟩ : Engine).execute d source .clear).outcome with
    | .ok report => pure (exporter.write report)
    | .error e => throw (.run e)

/-- The settings that a command line means. -/
def loadSettings (around : Surroundings m) (config : Option String) :
    ExceptT Failure m Settings := do
  let loaded ← ExceptT.lift <| match config with
    | some path => Settings.fromFile around path
    | none => Settings.load around
  match loaded with
  | .ok s => pure s
  | .error e => throw (.settings e)

/-- Does what a command line asks for. -/
def Invocation.run (around : Surroundings m) (i : Invocation) : ExceptT Failure m String := do
  let s ← loadSettings around i.config
  match i.command with
  | .fields entity => listFields around s i.registry entity
  | .validate file => CommandLine.validate around s i.registry file
  | .execute file records format => CommandLine.execute around s i.registry file records format

/-! ## Whole runs of the program -/

/-- How a run of the program ends. -/
inductive Ending
  /-- It says something. -/
  | success (output : String)
  | failure (cause : Failure)
  /-- The command line cannot be understood. -/
  | misuse
  deriving DecidableEq, Repr

/-- What the program says about its version. -/
def version : String := "tally 0.1.0\n"

/-- How the program is called. -/
def usage : String :=
  "Usage: tally [--config <FILE>] [--registry <FILE>] <COMMAND>\n\n" ++
  "Commands:\n" ++
  "  fields [--entity <ENTITY>]                                  List the fields of reports\n" ++
  "  validate <FILE>                                             Check a report definition\n" ++
  "  execute <FILE> [--records <FILE>] [--format <FORMAT>]       Run a report definition\n"

/-- A run of the program. -/
def perform (around : Surroundings m) (arguments : List String) : m Ending := do
  match Invocation.ofArguments arguments with
  | .error .version => pure (.success version)
  | .error .help => pure (.success usage)
  | .error .misuse => pure .misuse
  | .ok i =>
    match ← (i.run around).run with
    | .ok output => pure (.success output)
    | .error cause => pure (.failure cause)

end Reporting.CommandLine
