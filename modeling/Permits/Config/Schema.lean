import Permits.Config.Basic
import Permits.Value.Order

set_option autoImplicit false

namespace Permits

/-- A step from a value to a part of it. -/
inductive Step where
  | name (text : String)
  | index (number : Int)
  deriving DecidableEq

/-- What can be wrong with a part. -/
inductive Defect where
  | notText
  | notList
  | notMapping
  | keyNotText
  | unsupportedVersion (found : String)
  deriving DecidableEq

/-- Something wrong at a place. -/
structure Issue where
  place : List Step
  defect : Defect
  deriving DecidableEq

namespace Defect

def code : Defect → String
  | notText => "string_type"
  | notList => "list_type"
  | notMapping => "model_type"
  | keyNotText => "invalid_key"
  | unsupportedVersion _ => "value_error"

def supportedVersions : List String := ["1", "1.0"]

def message : Defect → String
  | notText => "Input should be a valid string"
  | notList => "Input should be a valid list"
  | notMapping => "Input should be a valid dictionary or instance of BlockConfig"
  | keyNotText => "Keys should be strings"
  | unsupportedVersion found =>
      "Value error, Unsupported config version " ++ Text.quoted found ++ ". Supported: " ++
        Text.quotedList supportedVersions ++ "."

end Defect

namespace Schema

abbrev Entries : Type := List (Scalar × Value)

def field? (name : String) (entries : Entries) : Option Value := Value.lookup? (.text name) entries

/-- The step to the value of a key. Whole numbers of 64 bits stand for themselves, and truth values
for one and zero. -/
def stepOf : Scalar → Step
  | .text text => .name text
  | .bool value => .index (if value then 1 else 0)
  | .int value =>
      if -0x8000000000000000 ≤ value ∧ value < 0x8000000000000000 then .index value
      else .name (toString value)
  | other => .name other.display

def keyIssues (place : List Step) (entries : Entries) : List Issue :=
  entries.filterMap fun (key, _) =>
    match key with
    | .text _ => none
    | other => some ⟨place ++ [stepOf other], .keyNotText⟩

def textIssues (place : List Step) : Value → List Issue
  | .scalar (.text _) => []
  | _ => [⟨place, .notText⟩]

def optionalTextIssues (place : List Step) : Option Value → List Issue
  | none => []
  | some (.scalar .null) => []
  | some value => textIssues place value

def versionIssues : Option Value → List Issue
  | none => []
  | some value =>
      if value.plain ∈ Defect.supportedVersions then []
      else [⟨[.name "version"], .unsupportedVersion value.plain⟩]

def listIssues (place : List Step) (check : List Step → Value → List Issue) :
    Option Value → List Issue
  | none => []
  | some (.list items) =>
      items.zipIdx.flatMap fun (item, index) => check (place ++ [.index index]) item
  | some _ => [⟨place, .notList⟩]

def blockIssues (place : List Step) : Value → List Issue
  | .map entries =>
      optionalTextIssues (place ++ [.name "name"]) (field? "name" entries) ++
        listIssues (place ++ [.name "statements"]) textIssues (field? "statements" entries) ++
        keyIssues place entries
  | _ => [⟨place, .notMapping⟩]

/-- The issues of a configuration: its version, its description, its blocks, its keys. -/
def issues (entries : Entries) : List Issue :=
  versionIssues (field? "version" entries) ++
    optionalTextIssues [.name "description"] (field? "description" entries) ++
    listIssues [.name "blocks"] blockIssues (field? "blocks" entries) ++
    keyIssues [] entries

def textOf? : Value → Option String
  | .scalar (.text text) => some text
  | _ => none

def itemsOf : Option Value → List Value
  | some (.list items) => items
  | _ => []

def extras (fields : List String) (entries : Entries) : List (String × Value) :=
  entries.filterMap fun (key, value) =>
    match key with
    | .text name => if name ∈ fields then none else some (name, value)
    | _ => none

def blockFields : List String := ["name", "statements"]

def configFields : List String := ["blocks", "description", "version"]

def readBlock : Value → BlockConfig
  | .map entries =>
      { name := (field? "name" entries).bind textOf?
        statements := (itemsOf (field? "statements" entries)).filterMap textOf?
        extra := extras blockFields entries }
  | _ => ⟨none, [], []⟩

def read (entries : Entries) : Config :=
  { version := (field? "version" entries).elim "1" Value.plain
    description := (field? "description" entries).bind textOf?
    blocks := (itemsOf (field? "blocks" entries)).map readBlock
    extra := extras configFields entries }

def check (entries : Entries) : Except (List Issue) Config :=
  match issues entries with
  | [] => .ok (read entries)
  | found => .error found

end Schema

end Permits
