import Permits.Command.Options
import Permits.Disk

set_option autoImplicit false

namespace Permits

/-- The configuration that a command works on, and how. -/
structure Settings where
  path : String
  strict : Bool
  json : Bool
  deriving DecidableEq

/-- A command with all it needs. -/
inductive Command where
  | version
  | validate (statements : List String)
  | build (settings : Settings)
  | check (request : String) (settings : Settings)
  deriving DecidableEq

namespace Command

inductive Verb where
  | build
  | check
  | validate
  | version
  deriving DecidableEq

namespace Verb

def text : Verb → String
  | build => "build"
  | check => "check"
  | validate => "validate"
  | version => "version"

def all : List Verb := [build, check, validate, version]

def ofText? (text : String) : Option Verb := all.find? (·.text = text)

end Verb

def configOption (letter : Option Char) : OptionSpec := ⟨"config", letter, true⟩

def flag (name : String) : OptionSpec := ⟨name, none, false⟩

/-- How each command reads its arguments. Statements may start with a hyphen, so the commands that
take some leave unknown options alone and have no letters. -/
def Verb.rules : Verb → OptionRules
  | build => ⟨[configOption (some 'c'), flag "strict", flag "json", flag "help"], false, false⟩
  | check => ⟨[configOption none, flag "strict", flag "json", flag "help"], true, false⟩
  | validate => ⟨[flag "help"], true, false⟩
  | version => ⟨[flag "help"], false, false⟩

def programRules : OptionRules := ⟨[flag "version", flag "help"], false, true⟩

def defaultPath : String := "permissions.yaml"

/-- Why a call is refused. -/
inductive UsageFault where
  | option (fault : OptionFault)
  | missingCommand
  | unknownCommand (name : String)
  | missingArgument (name : String)
  | extraArguments (arguments : List String)
  | noFile (path : String)
  | isDirectory (path : String)
  deriving DecidableEq

/-- What the arguments ask for. Help and refusals are about a command or the whole program. -/
inductive Call where
  | run (command : Command)
  | release
  | help (about : Option Verb)
  /-- Nothing is asked for. -/
  | overview
  | refused (about : Option Verb) (fault : UsageFault)
  deriving DecidableEq

def requireFile (lookup : Lookup) (path : String) : Except UsageFault Unit :=
  match lookup path with
  | some (.file _) => .ok ()
  | some .directory => .error (.isDirectory path)
  | none => .error (.noFile path)

def requireNone (arguments : List String) : Except UsageFault Unit :=
  if arguments.isEmpty then .ok () else .error (.extraArguments arguments)

def settings (parsed : Parsed) : Settings :=
  ⟨(parsed.value? "config").getD defaultPath, parsed.has "strict", parsed.has "json"⟩

def Verb.command (verb : Verb) (lookup : Lookup) (parsed : Parsed) : Except UsageFault Command :=
  let settings := settings parsed
  match verb with
  | version => do
      requireNone parsed.arguments
      return .version
  | validate =>
      if parsed.arguments.isEmpty then .error (.missingArgument "STATEMENTS...")
      else .ok (.validate parsed.arguments)
  | build => do
      requireFile lookup settings.path
      requireNone parsed.arguments
      return .build settings
  | check =>
      match parsed.arguments with
      | [] => do
          if parsed.has "config" then requireFile lookup settings.path
          throw (.missingArgument "REQUESTED")
      | request :: others => do
          requireFile lookup settings.path
          requireNone others
          return .check request settings

def Verb.call (verb : Verb) (lookup : Lookup) (words : List String) : Call :=
  match verb.rules.read words with
  | .error fault => .refused verb (.option fault)
  | .ok parsed =>
      if parsed.has "help" then .help verb
      else
        match verb.command lookup parsed with
        | .error fault => .refused verb fault
        | .ok command => .run command

def programCall? (given : List Given) : Option Call :=
  given.head?.map fun first => if first.name = "version" then .release else .help none

/-- The call of a word that is no command. If it is written like an option, it is read as one. -/
def unknownCall (name : String) (words : List String) : Call :=
  match programRules.read (name :: words) with
  | .error fault => .refused none (.option fault)
  | .ok parsed => (programCall? parsed.given).getD (.refused none (.unknownCommand name))

def callOf (lookup : Lookup) (words : List String) : Call :=
  if words.isEmpty then .overview
  else
    match programRules.read words with
    | .error fault => .refused none (.option fault)
    | .ok parsed =>
        match programCall? parsed.given, parsed.arguments with
        | some call, _ => call
        | none, [] => .refused none .missingCommand
        | none, name :: rest =>
            match Verb.ofText? name with
            | some verb => verb.call lookup rest
            | none => unknownCall name rest

def pathsOf (words : List String) : List String :=
  match programRules.read words with
  | .ok ⟨_, name :: rest⟩ =>
      match (Verb.ofText? name).bind fun verb => (verb.rules.read rest).toOption with
      | some parsed =>
          let path := (settings parsed).path
          [path, Path.normal path]
      | none => []
  | _ => []

end Command

end Permits
