import Reporting.Export

/-!
# CommandLine/Arguments — what a command line asks for

A command line names a command.  Options may stand anywhere after the program's name; those that
concern every command may also stand before the command, and then count unless they are given again
after it.  What follows a lone `--` is no option, whatever it looks like.
-/

namespace Reporting.CommandLine

/-- What is done. -/
inductive Command
  /-- Lists fields, of one entity or all. -/
  | fields (entity : Option String)
  /-- Checks a definition. -/
  | validate (file : String)
  /-- Runs a definition. -/
  | execute (file : String) (records : Option String) (format : ExportFormat)
  deriving DecidableEq, Repr

/-- What a command line asks for. -/
structure Invocation where
  /-- Where the settings are. -/
  config : Option String
  /-- Where the registry is. -/
  registry : Option String
  command : Command
  deriving DecidableEq, Repr

/-- Why a command line asks for no command. -/
inductive Interruption
  /-- It asks for the version. -/
  | version
  /-- It asks for help. -/
  | help
  /-- It cannot be understood. -/
  | misuse
  deriving DecidableEq, Repr

/-! ## Options -/

/-- The options with a value. -/
inductive Setting
  | config
  | registry
  | entity
  | records
  | format
  deriving DecidableEq, Repr

namespace Setting

/-- The name of an option. -/
def name : Setting → String
  | config => "config"
  | registry => "registry"
  | entity => "entity"
  | records => "records"
  | format => "format"

/-- The letter of an option. -/
def letter? : Setting → Option Char
  | config | registry => none
  | entity => some 'e'
  | records => some 'r'
  | format => some 'f'

end Setting

/-- The name that a format has on the command line. -/
def formatName : ExportFormat → String
  | .json => "json"
  | .csv => "csv"
  | .pdf => "pdf"
  | .excel => "excel"

/-- Whether an option can have a value: paths are not empty, and formats have names. -/
def Setting.admits : Setting → String → Bool
  | .entity, _ => true
  | .format, value => ExportFormat.all.any fun f => formatName f == value
  | _, value => !value.isEmpty

/-- The commands by name. -/
inductive Verb
  | fields
  | validate
  | execute
  deriving DecidableEq, Repr

namespace Verb

/-- All commands. -/
def all : List Verb := [fields, validate, execute]

/-- The name of a command. -/
def name : Verb → String
  | fields => "fields"
  | validate => "validate"
  | execute => "execute"

/-- The number of operands of a command, all of them files. -/
def arity : Verb → Nat
  | fields => 0
  | validate | execute => 1

end Verb

/-- The options that may stand before a command, or after the one given. -/
def settingsOf : Option Verb → List Setting
  | none | some .validate => [.config, .registry]
  | some .fields => [.config, .registry, .entity]
  | some .execute => [.config, .registry, .records, .format]

/-- How an argument is to be taken. -/
inductive Argument
  /-- An option, and its value if that is part of the argument. -/
  | setting (s : Setting) (value : Option String)
  | version
  | help
  /-- The mark after which there are no options. -/
  | mark
  | operand (text : String)
  /-- An option that there is not. -/
  | unknown
  deriving DecidableEq, Repr

/-- An argument that begins with two dashes. -/
def readLong (verb : Option Verb) (cs : List Char) : Argument :=
  let name := String.ofList (cs.takeWhile (· ≠ '='))
  let value := match cs.dropWhile (· ≠ '=') with
    | _ :: value => some (String.ofList value)
    | [] => none
  match (settingsOf verb).find? fun s => s.name == name with
  | some s => .setting s value
  | none =>
    if value.isSome then .unknown
    else if name = "help" then .help
    else if name = "version" ∧ verb = none then .version
    else .unknown

/-- An argument that begins with one dash and a letter. -/
def readShort (verb : Option Verb) (letter : Char) (cs : List Char) : Argument :=
  match (settingsOf verb).find? fun s => s.letter? == some letter with
  | some s =>
    .setting s <| match cs with
      | [] => none
      | '=' :: value => some (String.ofList value)
      | value => some (String.ofList value)
  | none =>
    if letter = 'h' then .help
    else if letter = 'V' ∧ verb = none then .version
    else .unknown

/-- How an argument is to be taken.  A lone dash is an operand. -/
def Argument.ofText (verb : Option Verb) (text : String) : Argument :=
  match text.toList with
  | ['-', '-'] => .mark
  | '-' :: '-' :: cs => readLong verb cs
  | '-' :: letter :: cs => readShort verb letter cs
  | _ => .operand text

/-! ## Whole command lines -/

/-- What has been read: options with their values, and operands. -/
structure Given where
  settings : List (Setting × String) := []
  operands : List String := []

/-- Takes in an option, which may be given once. -/
def Given.addSetting (g : Given) (s : Setting) (value : String) : Except Interruption Given :=
  if (g.settings.lookup s).isSome || !s.admits value then .error .misuse
  else .ok { g with settings := g.settings ++ [(s, value)] }

/-- Takes in the operands of a command, of which there may not be too many. -/
def Given.addOperands (verb : Verb) (g : Given) : List String → Except Interruption Given
  | [] => .ok g
  | text :: rest =>
    if text.isEmpty || verb.arity ≤ g.operands.length then .error .misuse
    else addOperands verb { g with operands := g.operands ++ [text] } rest

/-- Whether help on some commands can be given: on one of them, or on all. -/
def canHelp : List String → Bool
  | [] => true
  | [name] => name == "help" || Verb.all.any fun v => v.name == name
  | _ => false

/-- Reads the arguments before a command, and gives them with the command and the arguments after
it. -/
def readBefore (g : Given) : List String → Except Interruption (Given × Verb × List String)
  | [] => .error .misuse
  | text :: rest =>
    match Argument.ofText none text with
    | .setting s (some value) => do
      let g ← g.addSetting s value
      readBefore g rest
    | .setting s none =>
      match rest with
      | [] => .error .misuse
      | value :: rest =>
        match Argument.ofText none value with
        | .operand value => do
          let g ← g.addSetting s value
          readBefore g rest
        | _ => .error .misuse
    | .operand text =>
      match Verb.all.find? fun v => v.name == text with
      | some verb => .ok (g, verb, rest)
      | none => if text = "help" ∧ canHelp rest then .error .help else .error .misuse
    | .version => .error .version
    | .help => .error .help
    | _ => .error .misuse

/-- Reads the arguments after a command. -/
def readAfter (verb : Verb) (g : Given) : List String → Except Interruption Given
  | [] => .ok g
  | text :: rest =>
    match Argument.ofText (some verb) text with
    | .setting s (some value) => do
      let g ← g.addSetting s value
      readAfter verb g rest
    | .setting s none =>
      match rest with
      | [] => .error .misuse
      | value :: rest =>
        match Argument.ofText (some verb) value with
        | .operand value => do
          let g ← g.addSetting s value
          readAfter verb g rest
        | _ => .error .misuse
    | .operand text => do
      let g ← g.addOperands verb [text]
      readAfter verb g rest
    | .mark => g.addOperands verb rest
    | .help => .error .help
    | _ => .error .misuse

/-- The command that a name, options and operands make. -/
def command? (verb : Verb) (g : Given) : Option Command :=
  match verb, g.operands with
  | .fields, [] => some (.fields (g.settings.lookup .entity))
  | .validate, [file] => some (.validate file)
  | .execute, [file] =>
    let format := ((g.settings.lookup .format).bind fun name =>
      ExportFormat.all.find? fun f => formatName f == name).getD .json
    some (.execute file (g.settings.lookup .records) format)
  | _, _ => none

/-- What the arguments of a command line ask for. -/
def Invocation.ofArguments (arguments : List String) : Except Interruption Invocation := do
  let (before, verb, rest) ← readBefore {} arguments
  let after ← readAfter verb {} rest
  match command? verb after with
  | some command =>
    let shared (s : Setting) : Option String :=
      (after.settings.lookup s).or (before.settings.lookup s)
    .ok ⟨shared .config, shared .registry, command⟩
  | none => .error .misuse

end Reporting.CommandLine
