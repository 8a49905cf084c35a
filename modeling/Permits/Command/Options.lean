set_option autoImplicit false

namespace Permits.Command

structure OptionSpec where
  name : String
  letter : Option Char
  takesValue : Bool

structure OptionRules where
  options : List OptionSpec
  /-- Unknown options are arguments. -/
  lenient : Bool
  /-- Options stand before the first argument only. -/
  leading : Bool

/-- What is wrong with an option as it is written. -/
inductive OptionFault where
  | unknown (written : String)
  | valueMissing (written : String)
  | valueUnwanted (written : String)
  deriving DecidableEq

/-- An option that was given, with its value if it takes one. -/
structure Given where
  name : String
  value : Option String
  deriving DecidableEq

/-- Options and arguments apart, each in order. -/
structure Parsed where
  given : List Given
  arguments : List String
  deriving DecidableEq

/-- An option that waits for the next argument as its value. -/
structure Waiting where
  name : String
  written : String
  deriving DecidableEq

/-- What one word says: the options in it, perhaps one that waits for its value, and perhaps an
argument that is left of it. -/
structure Word where
  given : List Given
  waiting : Option Waiting
  argument : Option String
  deriving DecidableEq

namespace OptionRules

/-- The letters of a word behind its hyphen; letters of no option are left over. -/
def readLetters (rules : OptionRules) :
    List Char → Except OptionFault (List Given × Option Waiting × List Char)
  | [] => .ok ([], none, [])
  | letter :: rest =>
      let written := "-" ++ String.singleton letter
      match rules.options.find? (·.letter = some letter) with
      | none =>
          if rules.lenient then
            (rules.readLetters rest).map fun (given, waiting, others) =>
              (given, waiting, letter :: others)
          else .error (.unknown written)
      | some spec =>
          if !spec.takesValue then
            (rules.readLetters rest).map fun (given, waiting, others) =>
              (⟨spec.name, none⟩ :: given, waiting, others)
          else if rest.isEmpty then .ok ([], some ⟨spec.name, written⟩, [])
          else .ok ([⟨spec.name, some (String.ofList rest)⟩], none, [])

def readShort (rules : OptionRules) (letters : List Char) : Except OptionFault Word :=
  (rules.readLetters letters).map fun (given, waiting, others) =>
    ⟨given, waiting, if others.isEmpty then none else some (String.ofList ('-' :: others))⟩

/-- A word with hyphens in front. What stands before the first equals sign may be the full name of
an option. -/
def readDashed (rules : OptionRules) (word : List Char) : Except OptionFault Word :=
  let written := String.ofList (word.takeWhile (· ≠ '='))
  let value := (word.dropWhile (· ≠ '=')).tail?.map String.ofList
  match rules.options.find? (fun spec => "--" ++ spec.name = written) with
  | some spec =>
      match spec.takesValue, value with
      | true, some value => .ok ⟨[⟨spec.name, some value⟩], none, none⟩
      | true, none => .ok ⟨[], some ⟨spec.name, written⟩, none⟩
      | false, some _ => .error (.valueUnwanted written)
      | false, none => .ok ⟨[⟨spec.name, none⟩], none, none⟩
  | none =>
      match word with
      | '-' :: '-' :: _ =>
          if rules.lenient then .ok ⟨[], none, some (String.ofList word)⟩
          else .error (.unknown written)
      | _ => rules.readShort (word.drop 1)

/-- Whether a word is written like an option: with a hyphen in front and something behind it. -/
def isDashed (word : String) : Bool :=
  match word.toList with
  | '-' :: _ :: _ => true
  | _ => false

def read (rules : OptionRules) : List String → Except OptionFault Parsed
  | [] => .ok ⟨[], []⟩
  | word :: rest =>
      if word = "--" then .ok ⟨[], rest⟩
      else if isDashed word then
        match rules.readDashed word.toList with
        | .error fault => .error fault
        | .ok found =>
            match found.waiting with
            | none =>
                (rules.read rest).map fun parsed =>
                  ⟨found.given ++ parsed.given, found.argument.toList ++ parsed.arguments⟩
            | some waiting =>
                match rest with
                | [] => .error (.valueMissing waiting.written)
                | value :: later =>
                    (rules.read later).map fun parsed =>
                      ⟨found.given ++ ⟨waiting.name, some value⟩ :: parsed.given,
                        found.argument.toList ++ parsed.arguments⟩
      else if rules.leading then .ok ⟨[], word :: rest⟩
      else
        (rules.read rest).map fun parsed => ⟨parsed.given, word :: parsed.arguments⟩

end OptionRules

namespace Parsed

def has (parsed : Parsed) (name : String) : Bool := parsed.given.any (·.name = name)

def value? (parsed : Parsed) (name : String) : Option String :=
  (parsed.given.reverse.find? (·.name = name)).bind Given.value

end Parsed

end Permits.Command
