import Permits.Config.Schema
import Permits.Record
import Permits.Statement.Grammar
import Permits.Yaml.Fault

set_option autoImplicit false

namespace Permits

inductive Origin where
  | text
  | file
  deriving DecidableEq

inductive Refusal where
  /-- The document cannot be read at all. -/
  | unreadable (origin : Origin)
  | notMapping
  /-- A strict load met unknown keys. -/
  | unknownKeys (keys : List Scalar)
  | issues (issues : List Issue)
  /-- A strict load met a block with texts that are no statements. -/
  | invalidStatements (block : String) (statements : List String)

namespace Refusal

def message : Refusal → String
  | unreadable .text => "Failed to parse YAML string:"
  | unreadable .file => "Failed to parse YAML:"
  | notMapping => "Permission config must be a YAML mapping (dict)."
  | unknownKeys keys =>
      "Unknown top-level keys: " ++ Text.bracketed "[" "]" (keys.map Scalar.display) ++
        ". Known keys: " ++ Text.quotedList Schema.configFields ++ "."
  | issues [_] => "1 validation error for PermissionConfig"
  | issues found => toString found.length ++ " validation errors for PermissionConfig"
  | invalidStatements block statements =>
      "Block '" ++ block ++ "' has invalid statements: " ++ Text.quotedList statements

end Refusal

def namedSource (source : Option String) : Option String := source.filter (· ≠ "")

/-- A refusal with the source that the caller gave. -/
structure ConfigError where
  refusal : Refusal
  source : Option String

def ConfigError.message (error : ConfigError) : String :=
  (namedSource error.source).elim "" (fun source => "[" ++ source ++ "] ") ++ error.refusal.message

inductive LoadFault where
  | refused (error : ConfigError)
  /-- A strict load met unknown keys that cannot be put in order. -/
  | unorderedKeys
  | badScalar (fault : ScalarFault)
  /-- The document has a form that is not read here. -/
  | unread
  | missing (path : String)
  | directory

def LoadFault.missingMessage (path : String) : String := "Permission config not found: " ++ path

namespace Config

def invalidBlock? (config : Config) : Option (String × List String) :=
  config.blocks.zipIdx.findSome? fun (block, index) =>
    match block.statements.filter (!isStatement ·) with
    | [] => none
    | invalid => some (block.nameAt index, invalid)

/-- The top-level keys that are no fields. -/
def unknownKeys (entries : Schema.Entries) : List Scalar :=
  (entries.map Prod.fst).filter fun key =>
    match key with
    | .text name => name ∉ Schema.configFields
    | _ => true

def load (strict : Bool) (source : Option String) (value : Value) : Except LoadFault Config := do
  let refuse := fun {α : Type} (refusal : Refusal) =>
    (throw (.refused ⟨refusal, source⟩) : Except LoadFault α)
  match value with
  | .map entries =>
      let unknown := unknownKeys entries
      if strict ∧ !unknown.isEmpty then
        match Scalar.sort? unknown with
        | none => throw .unorderedKeys
        | some keys => refuse (.unknownKeys keys)
      match Schema.check entries with
      | .error found => refuse (.issues found)
      | .ok config =>
          if strict then
            match config.invalidBlock? with
            | some (block, invalid) => refuse (.invalidStatements block invalid)
            | none => return config
          else return config
  | _ => refuse .notMapping

def loadRecord (config : Config) (source : Option String) : Record :=
  .loaded config.blocks.length (namedSource source)

end Config

end Permits
