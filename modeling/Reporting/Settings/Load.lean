import Reporting.Files.Entry
import Reporting.Settings.Template
import Reporting.Toml.Document

/-!
# Settings/Load — where settings are found

The file with the settings is the one that a variable names, or else the first of two files that is
there.  The surroundings are asked through a monad, so that the same rules serve a program that runs
and a description of where one would run.
-/

namespace Reporting

/-- What a program can ask about the place where it runs. -/
structure Surroundings (m : Type → Type) where
  /-- The value of a variable. -/
  get? : String → m (Option String)
  /-- What is found at a path. -/
  look : String → m Entry

namespace Surroundings

variable {m : Type → Type} [Monad m]

/-- The values of those of some variables that are set. -/
def values (around : Surroundings m) : List String → m (List (String × String))
  | [] => pure []
  | name :: rest => do
    let value ← around.get? name
    let more ← around.values rest
    match value with
    | some value => pure ((name, value) :: more)
    | none => pure more

/-- A text with the values of variables in the place of references to them. -/
def expand (around : Surroundings m) (text : String) : m (Except SettingsError String) := do
  let values ← around.values (Template.references (Template.ofText text.toList))
  pure (Reporting.expand (fun name => values.lookup name) text)

/-- The directory for the settings of a user. -/
def configHome? (around : Surroundings m) : m (Option String) := do
  match ← around.get? "XDG_CONFIG_HOME" with
  | some path =>
    if path.startsWith "/" then pure (some path) else home
  | none => home
where
  /-- The directory that stands in for it. -/
  home : m (Option String) := do
    match ← around.get? "HOME" with
    | some path => pure (if path.isEmpty then none else some (path ++ "/.config"))
    | none => pure none

end Surroundings

namespace Settings

/-- The settings that a text describes. -/
def ofText (text : String) : Except SettingsError Settings :=
  match Toml.decodeText? Settings.decode text with
  | some s => s.checked
  | none => .error (.unparsable "not a description of settings")

/-- The settings in the file at a path. -/
def ofEntry (path : String) : Entry → Except SettingsError Settings
  | .missing => .error (.notFound path)
  | .unreadable reason => .error (.unreadable reason)
  | .text content => ofText content

variable {m : Type → Type} [Monad m]

/-- The settings in the file at a path. -/
def fromFile (around : Surroundings m) (path : String) : m (Except SettingsError Settings) := do
  pure (ofEntry path (← around.look path))

/-- The settings in the first file that is there, or the defaults. -/
def fromFirst (around : Surroundings m) : List String → m (Except SettingsError Settings)
  | [] => pure (.ok {})
  | path :: rest => do
    let entry ← around.look path
    if entry.isPresent then pure (ofEntry path entry) else fromFirst around rest

/-- The settings in the file that is meant when none is given. -/
def load (around : Surroundings m) : m (Except SettingsError Settings) := do
  match ← around.get? "TALLY_CONFIG" with
  | some path => fromFile around path
  | none =>
    let home ← around.configHome?
    fromFirst around ("tally.toml" :: (home.map (· ++ "/tally/config.toml")).toList)

/-- A path of the settings, if there is one. -/
def expanded (around : Surroundings m) :
    Option String → m (Except SettingsError (Option String))
  | some path => do pure ((← around.expand path).map some)
  | none => pure (.ok none)

/-- Where the registry is: at the path given, as it is, or where the settings say. -/
def registryFile (around : Surroundings m) (s : Settings) (given : Option String) :
    m (Except SettingsError (Option String)) :=
  match given with
  | some path => pure (.ok (some path))
  | none => expanded around s.registryPath

/-- Where the records are: at the path given, as it is, or where the settings say. -/
def sourceFile (around : Surroundings m) (s : Settings) (given : Option String) :
    m (Except SettingsError (Option String)) :=
  match given with
  | some path => pure (.ok (some path))
  | none => expanded around s.sourcePath

end Settings

end Reporting
