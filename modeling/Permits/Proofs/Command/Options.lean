import Permits.Command.Basic

set_option autoImplicit false

namespace Permits.Command

/-- A word that may be an argument: it does not start with two hyphens. -/
def IsBare (word : String) : Prop := ¬ ['-', '-'] <+: word.toList

instance decidableIsBare (word : String) : Decidable (IsBare word) :=
  inferInstanceAs (Decidable (¬ _))

theorem IsBare.ne {word : String} (bare : IsBare word) (rest : List Char) :
    word.toList ≠ '-' :: '-' :: rest := fun same => bare ⟨rest, same.symm⟩

/-- An option as a word: its full name, perhaps with a value behind an equals sign. -/
def written (name : String) (value : Option String) : String :=
  "--" ++ name ++ value.elim "" ("=" ++ ·)

/-- What is written for one argument or one option. -/
inductive Piece where
  | argument (word : String)
  | flag (name : String)
  /-- An option with its value, behind an equals sign or as a word of its own. -/
  | valued (name value : String) (joined : Bool)
  deriving DecidableEq

namespace Piece

def words : Piece → List String
  | argument word => [word]
  | flag name => [written name none]
  | valued name value true => [written name (some value)]
  | valued name value false => [written name none, value]

def given : Piece → List Given
  | argument _ => []
  | flag name => [⟨name, none⟩]
  | valued name value _ => [⟨name, some value⟩]

def arguments : Piece → List String
  | argument word => [word]
  | _ => []

end Piece

namespace OptionRules

/-- Options are read by their full names only and may stand anywhere, so hyphens can be left to the
arguments. -/
structure Roomy (rules : OptionRules) : Prop where
  lenient : rules.lenient = true
  anywhere : rules.leading = false
  noLetters : ∀ spec ∈ rules.options, spec.letter = none

variable {rules : OptionRules}

theorem readLetters_of_none (lenient : rules.lenient = true)
    (noLetters : ∀ spec ∈ rules.options, spec.letter = none) (letters : List Char) :
    rules.readLetters letters = .ok ([], none, letters) := by
  induction letters with
  | nil => rfl
  | cons letter rest ih =>
      have unknown : rules.options.find? (·.letter = some letter) = none := by
        rw [List.find?_eq_none]
        intro spec present
        simp [noLetters spec present]
      simp [readLetters, unknown, lenient, ih, Except.map]

theorem find?_hyphens (rules : OptionRules) (name : String) :
    rules.options.find? (fun spec => "--" ++ spec.name = "--" ++ name) =
      rules.options.find? (·.name = name) := by
  congr
  funext spec
  simp

theorem find?_hyphens_of_isBare (rules : OptionRules) {word : String} (bare : IsBare word)
    (start : List Char) (starts : start <+: word.toList) :
    rules.options.find? (fun spec => "--" ++ spec.name = String.ofList start) = none := by
  rw [List.find?_eq_none]
  rintro spec - same
  have same := congrArg String.toList (of_decide_eq_true same)
  rw [String.toList_ofList, String.toList_append] at same
  obtain ⟨later, whole⟩ := starts
  exact bare.ne _ (by rw [← whole, ← same]; rfl)

theorem readDashed_of_isBare {word : String} (bare : IsBare word) {letters : List Char}
    (spelled : word.toList = '-' :: letters) :
    rules.readDashed word.toList = rules.readShort letters := by
  have unknown := find?_hyphens_of_isBare rules bare (word.toList.takeWhile (· ≠ '='))
    (List.takeWhile_prefix _)
  rw [readDashed.eq_def]
  simp only [unknown]
  split
  case h_1 rest same => exact absurd same (bare.ne rest)
  case h_2 => rw [spelled]; rfl

theorem readShort_of_roomy (roomy : rules.Roomy) (letter : Char) (others : List Char) :
    rules.readShort (letter :: others) =
      .ok ⟨[], none, some (String.ofList ('-' :: letter :: others))⟩ := by
  rw [readShort, readLetters_of_none roomy.lenient roomy.noLetters]
  rfl

/-- A word that does not start with two hyphens is an argument, whatever it starts with. -/
theorem read_argument (roomy : rules.Roomy) {word : String} (bare : IsBare word)
    (rest : List String) :
    rules.read (word :: rest) =
      (rules.read rest).map fun parsed => ⟨parsed.given, word :: parsed.arguments⟩ := by
  have separate : word ≠ "--" := by
    rintro rfl
    exact bare.ne [] rfl
  rw [read, if_neg separate]
  split
  case isFalse => simp [roomy.anywhere]
  case isTrue dashed =>
      obtain ⟨letter, others, spelled⟩ :
          ∃ letter others, word.toList = '-' :: letter :: others := by
        rw [isDashed] at dashed
        split at dashed
        · exact ⟨_, _, ‹_›⟩
        · cases dashed
      rw [readDashed_of_isBare bare spelled, readShort_of_roomy roomy, ← spelled,
        String.ofList_toList]
      rfl

/-- A name under which an option is written and found, with or without a value. -/
structure Names (rules : OptionRules) (name : String) (takesValue : Bool) : Prop where
  nonempty : name ≠ ""
  plain : '=' ∉ name.toList
  known : ∃ spec, rules.options.find? (·.name = name) = some spec ∧ spec.takesValue = takesValue

instance decidableNames (name : String) (takesValue : Bool) :
    Decidable (rules.Names name takesValue) :=
  decidable_of_iff (name ≠ "" ∧ '=' ∉ name.toList ∧
      (rules.options.find? (·.name = name)).map OptionSpec.takesValue = some takesValue) <| by
    rw [Option.map_eq_some_iff]
    exact ⟨fun ⟨nonempty, plain, known⟩ => ⟨nonempty, plain, known⟩,
      fun ⟨nonempty, plain, known⟩ => ⟨nonempty, plain, known⟩⟩

/-- What a word says that names an option, perhaps with a value. -/
def namedWord (name : String) : Bool → Option String → Except OptionFault Word
  | true, some value => .ok ⟨[⟨name, some value⟩], none, none⟩
  | true, none => .ok ⟨[], some ⟨name, "--" ++ name⟩, none⟩
  | false, some _ => .error (.valueUnwanted ("--" ++ name))
  | false, none => .ok ⟨[⟨name, none⟩], none, none⟩

namespace Names

variable {name : String} {takesValue : Bool}

theorem written_ne (names : rules.Names name takesValue) (value : Option String) :
    written name value ≠ "--" := by
  intro same
  have empty : name ++ value.elim "" ("=" ++ ·) = "" := by
    simpa [written, String.append_assoc] using same
  exact names.nonempty (String.append_eq_empty_iff.mp empty).1

theorem isDashed_written (name : String) (value : Option String) :
    isDashed (written name value) = true := by
  simp [isDashed, written]

theorem readDashed_written (names : rules.Names name takesValue) (value : Option String) :
    rules.readDashed (written name value).toList = namedWord name takesValue value := by
  obtain ⟨spec, found, takes⟩ := names.known
  have named : spec.name = name := by
    simpa using List.find?_some found
  have known := (find?_hyphens rules name).trans found
  have unmarked : ∀ c ∈ ("--" ++ name).toList, decide (c ≠ '=') = true := by
    intro c present
    rw [String.toList_append, List.mem_append] at present
    rw [decide_eq_true_eq]
    rintro rfl
    exact present.elim (by decide) names.plain
  have front : (value.elim "" ("=" ++ ·)).toList.takeWhile (· ≠ '=') = [] := by
    cases value <;> simp
  have back : ((value.elim "" ("=" ++ ·)).toList.dropWhile (· ≠ '=')).tail?.map String.ofList =
      value := by
    cases value <;> simp
  rw [written, String.toList_append, readDashed.eq_def, List.takeWhile_append_of_pos unmarked,
    List.dropWhile_append_of_pos unmarked, front, back, List.append_nil, String.ofList_toList]
  simp only [known, named, takes]
  cases takesValue <;> cases value <;> rfl

theorem read_flag (names : rules.Names name false) (rest : List String) :
    rules.read (written name none :: rest) =
      (rules.read rest).map fun parsed => ⟨⟨name, none⟩ :: parsed.given, parsed.arguments⟩ := by
  rw [read, if_neg (names.written_ne none), if_pos (isDashed_written name none),
    names.readDashed_written]
  rfl

theorem read_joined (names : rules.Names name true) (value : String) (rest : List String) :
    rules.read (written name (some value) :: rest) =
      (rules.read rest).map fun parsed =>
        ⟨⟨name, some value⟩ :: parsed.given, parsed.arguments⟩ := by
  rw [read, if_neg (names.written_ne (some value)), if_pos (isDashed_written name (some value)),
    names.readDashed_written]
  rfl

theorem read_separate (names : rules.Names name true) (value : String) (rest : List String) :
    rules.read (written name none :: value :: rest) =
      (rules.read rest).map fun parsed =>
        ⟨⟨name, some value⟩ :: parsed.given, parsed.arguments⟩ := by
  rw [read, if_neg (names.written_ne none), if_pos (isDashed_written name none),
    names.readDashed_written]
  rfl

end Names

/-- Whether a piece can be read by the rules. -/
def Takes (rules : OptionRules) : Piece → Prop
  | .argument word => rules.Roomy ∧ IsBare word
  | .flag name => rules.Names name false
  | .valued name _ _ => rules.Names name true

/-- Reading a piece goes on with the rest: nothing of the one is taken for the other. -/
theorem read_piece {piece : Piece} (taken : rules.Takes piece) (rest : List String) :
    rules.read (piece.words ++ rest) = (rules.read rest).map fun parsed =>
      ⟨piece.given ++ parsed.given, piece.arguments ++ parsed.arguments⟩ := by
  match piece, taken with
  | .argument word, ⟨roomy, bare⟩ => exact read_argument roomy bare rest
  | .flag name, names => exact names.read_flag rest
  | .valued name value true, names => exact names.read_joined value rest
  | .valued name value false, names => exact names.read_separate value rest

theorem read_pieces_append {pieces : List Piece} (taken : ∀ piece ∈ pieces, rules.Takes piece)
    (rest : List String) :
    rules.read (pieces.flatMap Piece.words ++ rest) = (rules.read rest).map fun parsed =>
      ⟨pieces.flatMap Piece.given ++ parsed.given,
        pieces.flatMap Piece.arguments ++ parsed.arguments⟩ := by
  induction pieces with
  | nil =>
      rw [List.flatMap_nil, List.nil_append]
      cases rules.read rest <;> rfl
  | cons piece others ih =>
      rw [List.flatMap_cons, List.append_assoc, read_piece (taken piece List.mem_cons_self),
        ih fun other present => taken other (List.mem_cons_of_mem _ present)]
      cases rules.read rest with
      | error fault => rfl
      | ok parsed => simp [Except.map, List.append_assoc]

theorem read_pieces {pieces : List Piece} (taken : ∀ piece ∈ pieces, rules.Takes piece) :
    rules.read (pieces.flatMap Piece.words) =
      .ok ⟨pieces.flatMap Piece.given, pieces.flatMap Piece.arguments⟩ := by
  simpa [read, Except.map] using read_pieces_append taken []

theorem read_separator (rules : OptionRules) (words : List String) :
    rules.read ("--" :: words) = .ok ⟨[], words⟩ := by
  rw [read, if_pos rfl]

end OptionRules

theorem callOf_of_read {verb : Verb} {lookup : Lookup} {words : List String} {parsed : Parsed}
    {command : Command} (read : verb.rules.read words = .ok parsed)
    (noHelp : parsed.has "help" = false) (accepted : verb.command lookup parsed = .ok command) :
    callOf lookup (verb.text :: words) = .run command := by
  have known : callOf lookup (verb.text :: words) = verb.call lookup words := by
    cases verb <;> rfl
  rw [known, Verb.call, read]
  simp only [noHelp, accepted]
  rfl

end Permits.Command
