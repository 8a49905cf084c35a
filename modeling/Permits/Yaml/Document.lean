import Permits.Value.Order
import Permits.Yaml.Lexer
import Permits.Yaml.Node

set_option autoImplicit false

namespace Permits.Yaml

/-- The kinds of values that scalars have. -/
def Kind.isValue : Kind → Bool
  | null | bool | int | float | timestamp | text => true
  | _ => false

def Kind.isCollection (kind : Kind) : Bool := kind = .sequence || kind = .mapping

/-- The kind of a key. A lone equals sign is a text there. -/
def Kind.asKey (kind : Kind) : Kind := if kind = .default then .text else kind

/-- A scalar that is asked for as a value. It may stand for a mapping. -/
structure Ask where
  kind : Kind
  text : String
  standsIn : Bool
  isValue : kind.isValue = true

def Ask.make? (kind : Kind) (text : String) (standsIn : Bool) : Option Ask :=
  if isValue : kind.isValue = true then some ⟨kind, text, standsIn, isValue⟩ else none

/-- The value that is asked for. Dates are only looked for in scalars themselves. -/
def Ask.read (ask : Ask) : Except Fault Scalar :=
  if ask.standsIn ∧ ask.kind = .timestamp then .error (.scalar .notWritten)
  else ask.kind.readScalar ask.text

/-- What is needed in some place: that a scalar has a value, or another form than there is. -/
abbrev Need : Type := Option Ask

def Need.fault? : Need → Option Fault
  | none => some .malformed
  | some ask =>
      match ask.read with
      | .ok _ => none
      | .error fault => some fault

/-- The needs of a node and its parts. They are looked for level by level, in order on each. -/
abbrev Levels : Type := List (List Need)

def Levels.append : Levels → Levels → Levels
  | [], other => other
  | levels, [] => levels
  | level :: rest, level' :: rest' => (level ++ level') :: append rest rest'

/-- What a node says: its value, and what it needs to have it. -/
structure Meaning where
  value : Value
  needs : Levels

namespace Meaning

def ofNeed (need : Need) : Meaning :=
  ⟨.scalar ((need.bind fun ask => ask.read.toOption).getD .null), [[need]]⟩

def unfilled : Meaning := ⟨.list [], [[], [none]]⟩

def ofScalar (kind : Kind) (text : String) : Meaning :=
  if kind.isCollection then unfilled else ofNeed (Ask.make? kind text false)

def below (part : Meaning) : Levels := [] :: part.needs

def ofItems (items : List Meaning) : Meaning :=
  ⟨.list (items.map Meaning.value), items.foldr (fun item => item.below.append) []⟩

def entryNeeds (key value : Meaning) : Levels :=
  key.below.append (match key.value with
    | .scalar _ => value.below
    | _ => [[], [none]])

def ofEntries (entries : List (Meaning × Meaning)) : Meaning :=
  -- only scalars are keys, and of equal keys the last value counts
  let table := entries.foldl (fun table (key, value) =>
    match key.value with
    | .scalar key => Value.put key value.value table
    | _ => table) []
  ⟨.map table, entries.foldr (fun (key, value) => (entryNeeds key value).append) []⟩

end Meaning

/-- The entries of a mapping, those of merged mappings apart from its own. -/
structure Entries where
  merged : List (Meaning × Meaning)
  own : List (Meaning × Meaning)

/-- Merged entries come first, so that the own ones count. -/
def Entries.all (entries : Entries) : List (Meaning × Meaning) := entries.merged ++ entries.own

namespace Node

mutual

/-- The text of a node that is asked for a scalar: that of a scalar, or of the value that stands
for a mapping. -/
def text? : Node → Option String
  | scalar _ text => some text
  | sequence _ _ => none
  | mapping _ entries => entriesText? entries

def entriesText? : List (Node × Node) → Option String
  | [] => none
  | (key, value) :: rest => if key.kind = .default then text? value else entriesText? rest

end

/-- A collection that is asked for another kind, with the text that stands for it. -/
def asKind (kind : Kind) (text : Option String) : Meaning :=
  if kind.isCollection then .unfilled
  else .ofNeed (text.bind fun text => Ask.make? kind text true)

/-- The meaning of a node as a key, beside its meaning elsewhere. -/
def asKey (key : Node) (elsewhere : Meaning) : Meaning :=
  match key with
  | scalar kind text => .ofScalar kind.asKey text
  | mapping .default entries => asKind .text (entriesText? entries)
  | _ => elsewhere

mutual

def meaning : Node → Meaning
  | scalar kind text => .ofScalar kind text
  | sequence kind items =>
      if kind = .sequence then .ofItems (itemMeanings items) else asKind kind none
  | mapping kind entries =>
      if kind = .mapping then
        match entryMeanings entries with
        | some found => .ofEntries found.all
        | none => .unfilled
      else asKind kind (entriesText? entries)

def itemMeanings : List Node → List Meaning
  | [] => []
  | item :: rest => meaning item :: itemMeanings rest

/-- The meanings of entries, with merged mappings taken apart; what is merged has to be a mapping or
a sequence of mappings. -/
def entryMeanings : List (Node × Node) → Option Entries
  | [] => some ⟨[], []⟩
  | (key, value) :: rest =>
      if key.kind = .merge then
        match mergedMeanings value, entryMeanings rest with
        | some merged, some found => some { found with merged := merged ++ found.merged }
        | _, _ => none
      else
        (entryMeanings rest).map fun found =>
          { found with own := (asKey key (meaning key), meaning value) :: found.own }

/-- The entries that a node adds to a mapping that it is merged into. Of several mappings an earlier
one counts more. -/
def mergedMeanings : Node → Option (List (Meaning × Meaning))
  | mapping _ entries => (entryMeanings entries).map Entries.all
  | sequence _ items => mergedItems items
  | scalar _ _ => none

def mergedItems : List Node → Option (List (Meaning × Meaning))
  | [] => some []
  | mapping _ entries :: rest =>
      match entryMeanings entries, mergedItems rest with
      | some found, some later => some (later ++ found.all)
      | _, _ => none
  | _ :: _ => none

end

def needs (node : Node) : List Need := node.meaning.needs.flatten

end Node

/-- The value of a text that is a document. A text without a document is null. -/
def read (text : String) : Except Fault Value := do
  match ← Node.ofStream (.ofText text) with
  | none => return .scalar .null
  | some node =>
      match node.needs.findSome? Need.fault? with
      | some fault => throw fault
      | none => return node.meaning.value

end Permits.Yaml
