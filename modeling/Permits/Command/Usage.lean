import Permits.Command.Basic
import Permits.Terminal.Screen
import Permits.Text.Quoted

set_option autoImplicit false

namespace Permits.Command

def programName : String := "permtree"

def Verb.about : Verb → String
  | build => "Merge the configured blocks and print the effective statements."
  | check => "Authorize the REQUESTED statement against the configured blocks."
  | validate => "Check STATEMENTS against the permission grammar."
  | version => "Show detailed version information."

def programAbout : String :=
  "Permission tree CLI — validate, merge and evaluate permission statements."

def Verb.argumentUsage : Verb → String
  | build => ""
  | check => " REQUESTED"
  | validate => " STATEMENTS..."
  | version => ""

def callName (about : Option Verb) : String :=
  programName ++ about.elim "" fun verb => " " ++ verb.text

def usageLine (about : Option Verb) : String :=
  "Usage: " ++ callName about ++ " [OPTIONS]" ++
    about.elim " COMMAND [ARGS]..." Verb.argumentUsage ++ "\n"

def termList (title : String) (terms : List (String × String)) : String :=
  let column := (terms.map fun (term, _) => term.length).foldl max 0 + 4
  let row := fun ((term, meaning) : String × String) =>
    let lines := (Terminal.wrap (78 - column) .fold meaning.toList).map fun line =>
      String.ofList (Terminal.trimEnd line)
    let first := "  " ++ term ++ String.ofList (List.replicate (column - 2 - term.length) ' ')
    let indent := "\n" ++ String.ofList (List.replicate column ' ')
    first ++ indent.intercalate lines ++ "\n"
  "\n" ++ title ++ ":\n" ++ String.join (terms.map row)

def Verb.optionTerms (verb : Verb) : List (String × String) :=
  let help := [("--help", "Show this message and exit.")]
  let config := fun term => [(term, "Path to the permission blocks YAML file.  [default: " ++
    defaultPath ++ "]")]
  let strict := [("--strict", "Reject unknown keys and invalid statements in the config.")]
  match verb with
  | build => config "-c, --config FILE" ++ strict ++ [("--json", "Print the tree as JSON.")] ++ help
  | check => config "--config FILE" ++ strict ++ [("--json", "Print the decision as JSON.")] ++ help
  | validate => help
  | version => help

def helpText (about : Option Verb) : String :=
  let intro := usageLine about ++ "\n  " ++ about.elim programAbout Verb.about ++ "\n"
  match about with
  | some verb => intro ++ termList "Options" verb.optionTerms
  | none =>
      intro ++
        termList "Options" [("--version", "Show the version and exit."),
          ("--help", "Show this message and exit.")] ++
        termList "Commands" (Verb.all.map fun verb => (verb.text, verb.about))

def OptionFault.message : OptionFault → String
  | .unknown written => "No such option " ++ Text.quoted written ++ "."
  | .valueMissing written => "Option " ++ Text.quoted written ++ " requires an argument."
  | .valueUnwanted written => "Option " ++ Text.quoted written ++ " does not take a value."

def configNames (about : Option Verb) : String :=
  if about = some .build then "'--config' / '-c'" else "'--config'"

def UsageFault.message (about : Option Verb) : UsageFault → String
  | option fault => fault.message
  | missingCommand => "Missing command."
  | unknownCommand name => "No such command " ++ Text.quoted name ++ "."
  | missingArgument name => "Missing argument '" ++ name ++ "'."
  | extraArguments arguments =>
      "Got unexpected extra argument" ++ (if arguments.length = 1 then "" else "s") ++ " (" ++
        " ".intercalate arguments ++ ")"
  | noFile path =>
      "Invalid value for " ++ configNames about ++ ": File " ++ Text.quoted path ++
        " does not exist."
  | isDirectory path =>
      "Invalid value for " ++ configNames about ++ ": File " ++ Text.quoted path ++
        " is a directory."

/-- Whether a refusal comes with the usage. What is wrong with the value of an option does not. -/
def UsageFault.showsUsage : UsageFault → Bool
  | option (.valueMissing _) => false
  | option (.valueUnwanted _) => false
  | _ => true

def refusalText (about : Option Verb) (fault : UsageFault) : String :=
  let name := callName about
  let usage := usageLine about ++ "Try '" ++ name ++ " --help' for help.\n\n"
  (if fault.showsUsage then usage else "") ++ "Error: " ++ fault.message about ++ "\n"

end Permits.Command
