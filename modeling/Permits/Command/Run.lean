import Permits.Command.Usage
import Permits.Config.Source
import Permits.Decision.Json
import Permits.Guard
import Permits.Terminal.Markup
import Permits.Tree.Json

set_option autoImplicit false

namespace Permits.Command

open Terminal (Listing panel paragraph printed)
open Terminal.Markup (Emojis display? emojify)

/-- Why a run breaks off without saying so. -/
inductive Breakdown where
  | load (fault : LoadFault)
  /-- A text to be printed closes a style that is not open. -/
  | unopenedStyle

/-- What a run leaves behind. -/
structure Outcome where
  exitCode : Nat
  output : String
  errors : String
  records : List Record
  breakdown : Option Breakdown

namespace Outcome

def prints (exitCode : Nat) (output : String) : Outcome := ⟨exitCode, output, "", [], none⟩

def reports (exitCode : Nat) (errors : String) : Outcome := ⟨exitCode, "", errors, [], none⟩

def breaks (breakdown : Breakdown) : Outcome := ⟨1, "", "", [], some breakdown⟩

def after (records : List Record) (outcome : Outcome) : Outcome :=
  { outcome with records := records ++ outcome.records }

end Outcome

def withDisplay (emojis : Emojis) (text : String) (next : List Char → Outcome) : Outcome :=
  match display? emojis text with
  | some shown => next shown
  | none => .breaks .unopenedStyle

/-- The error of a refused configuration. Where only the start of the words is known, the line is
left open. -/
def refusedConfig (emojis : Emojis) (error : ConfigError) : Outcome :=
  withDisplay emojis error.message fun shown =>
    let lines := paragraph ("Invalid config: ".toList ++ shown)
    .reports 2 (match error.refusal with
      | .issues _ => String.ofList (lines.headD [])
      | .unreadable _ => String.ofList (['\n'].intercalate lines)
      | _ => printed lines)

/-- Builds the tree of the configuration and goes on with it. -/
def withTree (emojis : Emojis) (lookup : Lookup) (settings : Settings) (next : Tree → Outcome) :
    Outcome :=
  match Config.loadFile settings.strict lookup settings.path with
  | .error (.refused error) => refusedConfig emojis error
  | .error fault => .breaks (.load fault)
  | .ok config =>
      let (guard, records) := Guard.ofTexts config.statementBlocks
      (next guard.tree).after
        (config.loadRecord (some (Path.normal settings.path)) :: records)

def runVersion : Outcome :=
  .prints 0 (printed (panel "Version".toList
    ("permission-tree  v" ++ release ++
      "\nGrant/deny permission statements merged into an authorization tree.").toList))

def verdict (statement : String) : String := if isStatement statement then "VALID" else "INVALID"

def verdictListing? (emojis : Emojis) (statements : List String) : Option Listing :=
  (statements.mapM fun statement =>
    (display? emojis statement).map fun shown =>
      [shown, (verdict statement).toList]).map fun rows =>
    ⟨"Statement Validation".toList, ["Statement".toList, "Result".toList], rows⟩

def runValidate (emojis : Emojis) (statements : List String) : Outcome :=
  match verdictListing? emojis statements with
  | some listing => .prints (if statements.all isStatement then 0 else 1) (printed listing.lines)
  | none => .breaks .unopenedStyle

def statementListing (emojis : Emojis) (statements : List String) : Listing :=
  ⟨"Effective Permissions".toList, ["Statement".toList],
    statements.map fun statement => [emojify emojis statement.toList]⟩

def treeText (emojis : Emojis) (tree : Tree) : String :=
  let statements := tree.statements
  if statements.isEmpty then "No effective permissions.\n"
  else
    printed (statementListing emojis statements).lines ++
      printed (paragraph ("  Apps: " ++ toString tree.length ++ "  Statements: " ++
        toString statements.length).toList)

def runBuild (emojis : Emojis) (lookup : Lookup) (settings : Settings) : Outcome :=
  withTree emojis lookup settings fun tree =>
    .prints 0 (if settings.json then tree.json.indented 0 ++ "\n" else treeText emojis tree)

def decisionCode (report : Report) : Nat :=
  if !report.ok then 2 else if report.authorized then 0 else 1

def decisionText (emojis : Emojis) (request : String) (report : Report) : Outcome :=
  withDisplay emojis request fun shown =>
    match report.error with
    | some error =>
        .reports 2 (printed (paragraph (("Error: " ++ error ++ ": ").toList ++ shown)))
    | none =>
        withDisplay emojis (report.message.getD "None") fun message =>
          let status := if report.authorized then "AUTHORIZED" else "DENIED"
          .prints (decisionCode report)
            (printed (panel "Authorization Result".toList status.toList) ++
              printed (paragraph ("  Requested: ".toList ++ shown)) ++
              printed (paragraph ("  Message: ".toList ++ message)))

def runCheck (emojis : Emojis) (lookup : Lookup) (request : String) (settings : Settings) :
    Outcome :=
  withTree emojis lookup settings fun tree =>
    let decision := tree.authorize (.ofText request)
    let outcome :=
      if settings.json then
        .prints (decisionCode decision.report) (decision.report.json.compact ++ "\n")
      else decisionText emojis request decision.report
    outcome.after [decision.record (.ofText request)]

def execute (emojis : Emojis) (lookup : Lookup) : Command → Outcome
  | version => runVersion
  | validate statements => runValidate emojis statements
  | build settings => runBuild emojis lookup settings
  | check request settings => runCheck emojis lookup request settings

def run (emojis : Emojis) (lookup : Lookup) (words : List String) : Outcome :=
  match callOf lookup words with
  | .run command => command.execute emojis lookup
  | .release => .prints 0 (programName ++ ", version " ++ release ++ "\n")
  | .help about => .prints 0 (helpText about)
  | .overview => .reports 2 (helpText none)
  | .refused about fault => .reports 2 (refusalText about fault)

end Permits.Command
