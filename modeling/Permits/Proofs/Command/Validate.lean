import Mathlib.Data.List.Forall2
import Permits.Command.Run
import Permits.Proofs.Command.Options
import Permits.Proofs.Terminal.Column
import Permits.Proofs.Terminal.Markup

set_option autoImplicit false

namespace Permits.Command

open Terminal (Listing Unbroken printed screenWidth stroke textWidth wrap)
open Terminal.Markup (Emojis display?)

/-- The arguments of a validation: strings in front of a separator and strings behind it, if there
is one. -/
structure ValidateLine where
  before : List String
  behind : Option (List String)

namespace ValidateLine

def words (line : ValidateLine) : List String :=
  Verb.validate.text :: (line.before ++ line.behind.elim [] ("--" :: ·))

def statements (line : ValidateLine) : List String := line.before ++ line.behind.getD []

variable (line : ValidateLine)

theorem read_words (bare : ∀ word ∈ line.before, IsBare word) :
    Verb.validate.rules.read (line.before ++ line.behind.elim [] ("--" :: ·)) =
      .ok ⟨[], line.statements⟩ := by
  have roomy : Verb.validate.rules.Roomy := ⟨rfl, rfl, by decide⟩
  have taken : ∀ piece ∈ line.before.map Piece.argument, Verb.validate.rules.Takes piece := by
    intro piece present
    obtain ⟨word, listed, rfl⟩ := List.mem_map.mp present
    exact ⟨roomy, bare word listed⟩
  have behind : Verb.validate.rules.read (line.behind.elim [] ("--" :: ·)) =
      .ok ⟨[], line.behind.getD []⟩ := by
    cases line.behind with
    | none => rfl
    | some words => exact OptionRules.read_separator _ words
  have given : (line.before.map Piece.argument).flatMap Piece.given = [] := by
    rw [List.flatMap_map]
    exact List.flatMap_eq_nil_iff.mpr fun _ _ => rfl
  have read := OptionRules.read_pieces_append taken (line.behind.elim [] ("--" :: ·))
  rw [behind, given] at read
  simpa [List.flatMap_map, Piece.words, Piece.arguments, Except.map, statements] using read

theorem callOf_words (bare : ∀ word ∈ line.before, IsBare word) (nonempty : line.statements ≠ [])
    (lookup : Lookup) : callOf lookup line.words = .run (.validate line.statements) := by
  have accepted : Verb.validate.command lookup ⟨[], line.statements⟩ =
      .ok (.validate line.statements) := by
    simp only [Verb.command, List.isEmpty_iff, nonempty, ↓reduceIte]
  exact callOf_of_read (line.read_words bare) rfl accepted

end ValidateLine

/-- The cells of a statement in the table: its text as it is shown, and its verdict. -/
def IsVerdictRow (emojis : Emojis) (statement : String) (cells : List (List Char)) : Prop :=
  ∃ shown, display? emojis statement = some shown ∧ cells = [shown, (verdict statement).toList]

theorem exists_rows (emojis : Emojis) (statements : List String) :
    ∃ rows, (statements.mapM fun statement =>
        (display? emojis statement).map fun shown =>
          [shown, (verdict statement).toList]) = some rows ∧
      List.Forall₂ (IsVerdictRow emojis) statements rows := by
  induction statements with
  | nil => exact ⟨[], rfl, .nil⟩
  | cons statement rest ih =>
      obtain ⟨rows, same, each⟩ := ih
      obtain ⟨shown, display⟩ := Terminal.Markup.exists_display? emojis statement
      refine ⟨[shown, (verdict statement).toList] :: rows, ?_, .cons ⟨shown, display, rfl⟩ each⟩
      rw [List.mapM_cons, display, same]
      rfl

def verdictTitle : List Char := "Statement Validation".toList

def verdictTable (rows : List (List (List Char))) : Listing :=
  ⟨verdictTitle, ["Statement".toList, "Result".toList], rows⟩

/-- A verdict fits into a column that is as wide as the heading, or one wider, and as itself. -/
theorem wrap_verdict {width : Nat} (least : 6 ≤ width) (most : width ≤ 7) (statement : String)
    (fits : textWidth (verdict statement).toList ≤ width) :
    wrap width .ellipsis (verdict statement).toList = [(verdict statement).toList] := by
  obtain rfl | rfl : width = 6 ∨ width = 7 := by omega
  · cases valid : isStatement statement with
    | true =>
      simp only [verdict, valid]
      decide
    | false =>
      simp only [verdict, valid] at fits
      exact absurd fits (by decide)
  · cases valid : isStatement statement <;> simp only [verdict, valid] <;> decide

def verdictTop (first last : Nat) : List (List Char) :=
  Listing.top (first + last + 7) verdictTitle
    (Listing.rowOf first last "Statement".toList "Result".toList)

theorem wrap_statementHeading {width : Nat} (least : 9 ≤ width) :
    wrap width .ellipsis "Statement".toList = ["Statement".toList] := by
  have name : Unbroken "Statement".toList := .of_all (by decide) (by decide) (by decide)
  have size : "Statement".toList.length = 9 := by decide
  rw [name.wrap, name.narrow.cut_ellipsis, if_pos (by omega)]

/-- Neither verdict stands in front of the rows: it has a letter that is not there. -/
theorem not_mem_verdictTop {first last : Nat} (least : 9 ≤ first) {line : List Char}
    (present : line ∈ verdictTop first last) : 'A' ∉ line := by
  intro letter
  have heading : 'A' ∉ (Listing.rowOf first last "Statement".toList "Result".toList).flatten := by
    intro inHeading
    rw [Listing.rowOf, wrap_statementHeading least] at inHeading
    have inside : 'A' ∈ Listing.rowLine first last "Statement".toList "Result".toList := by
      simpa using inHeading
    rcases Listing.mem_rowLine inside with left | right | space
    · exact absurd left (by decide)
    · exact absurd right (by decide)
    · exact absurd space (by decide)
  rcases Listing.mem_of_mem_top (by omega) (by decide) (by decide) present letter with
    title | inHeading | space | rule
  · exact absurd title (by decide)
  · exact heading inHeading
  · exact absurd space (by decide)
  · exact absurd rule (by decide)

section Rows

variable {emojis : Emojis} {statements : List String} {rows : List (List (List Char))}
  (each : List.Forall₂ (IsVerdictRow emojis) statements rows)
include each

theorem map_getD_rows :
    rows.map (·.getD 1 []) = statements.map fun statement => (verdict statement).toList := by
  induction each with
  | nil => rfl
  | cons row _ ih =>
      obtain ⟨shown, -, rfl⟩ := row
      rw [List.map_cons, List.map_cons, ih]
      rfl

theorem lastWidth_rows :
    6 ≤ Listing.lastWidth "Result".toList rows ∧ Listing.lastWidth "Result".toList rows ≤ 7 ∧
      ∀ statement ∈ statements,
        textWidth (verdict statement).toList ≤ Listing.lastWidth "Result".toList rows := by
  have widths : ∀ statement, Listing.cellWidth (verdict statement).toList ≤ 7 ∧
      Listing.cellWidth (verdict statement).toList = textWidth (verdict statement).toList := by
    intro statement
    cases valid : isStatement statement <;> simp only [verdict, valid] <;> decide
  rw [Listing.lastWidth, map_getD_rows each]
  refine ⟨?_, ?_, ?_⟩
  · have heading : Listing.cellWidth "Result".toList = 6 := by decide
    rw [← heading]
    exact Listing.cellWidth_le_widest _ List.mem_cons_self
  · rw [Listing.widest, Terminal.foldl_max_le_iff, List.forall_mem_cons]
    refine ⟨Nat.zero_le _, by decide, ?_⟩
    intro cell present
    obtain ⟨statement, -, rfl⟩ := List.mem_map.mp present
    exact (widths statement).1
  · intro statement present
    rw [← (widths statement).2]
    have listed := List.mem_map_of_mem (f := fun statement => (verdict statement).toList) present
    exact Listing.cellWidth_le_widest _ (List.mem_cons_of_mem _ listed)

/-- The lines of the table: those of one row for each statement, between lines without verdicts. -/
theorem exists_lines : ∃ first last groups, 9 ≤ first ∧
    (verdictTable rows).lines =
      verdictTop first last ++ groups.flatten ++ [stroke ' ' (first + last + 7)] ∧
    List.Forall₂ (fun statement group => ∃ shown, display? emojis statement = some shown ∧
      group = Listing.rowOf first last shown (verdict statement).toList) statements groups := by
  obtain ⟨least, most, fits⟩ := lastWidth_rows each
  let first := Listing.firstWidth "Statement".toList "Result".toList rows
  let last := Listing.lastWidth "Result".toList rows
  have wide : 9 ≤ first := by
    have heading : Listing.cellWidth "Statement".toList = 9 := by decide
    have within : Listing.cellWidth "Statement".toList ≤
        Listing.widest "Statement".toList (rows.map (·.getD 0 [])) :=
      Listing.cellWidth_le_widest _ List.mem_cons_self
    simp only [first, Listing.firstWidth, screenWidth]
    omega
  have widths : (verdictTable rows).widths = [first + 2, last + 2] :=
    Listing.widths_twoColumns _ _ _ rows (by rw [screenWidth]; omega)
  have whole : Listing.total (verdictTable rows).widths + (verdictTable rows).edges =
      first + last + 7 := by
    rw [widths]
    simp only [Listing.total, Listing.edges, verdictTable, List.foldl_cons, List.foldl_nil,
      List.length_cons, List.length_nil]
    omega
  have heading : wrap last .ellipsis "Result".toList = ["Result".toList] := by
    obtain same | same : last = 6 ∨ last = 7 := by omega
    all_goals rw [same]; decide
  refine ⟨first, last, rows.map (Listing.rowLines [first + 2, last + 2]), wide, ?_, ?_⟩
  · rw [Listing.lines_eq whole, widths, verdictTop, List.flatMap_def]
    simp only [verdictTable, Listing.rowLines_eq_rowOf heading]
  · rw [List.forall₂_map_right_iff, List.forall₂_iff_zip]
    rw [List.forall₂_iff_zip] at each
    refine ⟨each.1, ?_⟩
    intro statement cells paired
    obtain ⟨shown, display, rfl⟩ := each.2 paired
    have fit := fits statement (List.of_mem_zip paired).1
    exact ⟨shown, display, Listing.rowLines_eq_rowOf (wrap_verdict least most statement fit)⟩

end Rows

/-- A validation judges just the strings that it is given, whether they start with a hyphen or stand
behind a separator: for each of them in turn it prints the lines of one row, with the string as a
terminal shows it and its verdict, in a column no narrower than its heading. No other line bears a
verdict. The exit code is zero if all strings are statements and one otherwise. -/
theorem validate_judges (emojis : Emojis) (lookup : Lookup) (line : ValidateLine)
    (bare : ∀ word ∈ line.before, IsBare word) (nonempty : line.statements ≠ []) :
    let outcome := run emojis lookup line.words
    callOf lookup line.words = .run (.validate line.statements) ∧
      outcome.breakdown = none ∧ outcome.errors = "" ∧
      (∃ above groups below first last,
        outcome.output = printed (above ++ groups.flatten ++ below) ∧ 9 ≤ first ∧
        List.Forall₂ (fun statement group => ∃ shown, display? emojis statement = some shown ∧
          group = Listing.rowOf first last shown
            (if isStatement statement then "VALID" else "INVALID").toList)
          line.statements groups ∧
        ∀ other ∈ above ++ below, ¬ "VALID".toList <:+: other) ∧
      (outcome.exitCode = 0 ↔ ∀ statement ∈ line.statements, isStatement statement = true) ∧
      (outcome.exitCode = 1 ↔ ∃ statement ∈ line.statements, isStatement statement = false) := by
  intro outcome
  obtain ⟨rows, listed, each⟩ := exists_rows emojis line.statements
  have table : verdictListing? emojis line.statements = some (verdictTable rows) := by
    rw [verdictListing?, listed]
    rfl
  have call := line.callOf_words bare nonempty lookup
  have result : outcome = .prints (if line.statements.all isStatement then 0 else 1)
      (printed (verdictTable rows).lines) := by
    change run emojis lookup line.words = _
    rw [run, call]
    change runValidate emojis line.statements = _
    rw [runValidate, table]
  obtain ⟨first, last, groups, wide, lines, judged⟩ := exists_lines each
  rw [result]
  refine ⟨call, rfl, rfl, ⟨verdictTop first last, groups, [stroke ' ' (first + last + 7)], first,
    last, congrArg printed lines, wide, judged, ?_⟩, ?_, ?_⟩
  · intro other present inside
    have letter : 'A' ∈ other := inside.subset (by decide)
    rcases List.mem_append.mp present with above | below
    · exact not_mem_verdictTop wide above letter
    · rw [List.mem_singleton.mp below] at letter
      exact absurd (List.eq_of_mem_replicate letter) (by decide)
  · cases valid : line.statements.all isStatement <;> simp_all [Outcome.prints]
  · cases valid : line.statements.all isStatement <;> simp_all [Outcome.prints]

/-- Strings with a hyphen in front, and behind the separator one that is written like an option and
one with a name that the terminal knows. -/
theorem validate_judges_hyphens :
    let emojis : Emojis := fun name => if name = "smile" then some "😄" else none
    let line : ValidateLine := ⟨["-read@docs", "-c", "-"], some ["--help", "read@docs:smile:x"]⟩
    let outcome := run emojis (fun _ => none) line.words
    line.words = ["validate", "-read@docs", "-c", "-", "--", "--help", "read@docs:smile:x"] ∧
      (∀ word ∈ line.before, IsBare word) ∧ line.statements ≠ [] ∧
      callOf (fun _ => none) line.words =
        .run (.validate ["-read@docs", "-c", "-", "--help", "read@docs:smile:x"]) ∧
      (∃ above groups below first last,
        outcome.output = printed (above ++ groups.flatten ++ below) ∧
        List.Forall₂ (fun (row : String × String) group =>
            group = Listing.rowOf first last row.1.toList row.2.toList)
          [("-read@docs", "VALID"), ("-c", "INVALID"), ("-", "INVALID"), ("--help", "INVALID"),
            ("read@docs😄x", "VALID")] groups) ∧
      outcome.exitCode = 1 := by
  intro emojis line outcome
  have bare : ∀ word ∈ line.before, IsBare word := by decide
  have nonempty : line.statements ≠ [] := by decide
  obtain ⟨call, -, -, ⟨above, groups, below, first, last, output, -, judged, -⟩, -, invalid⟩ :=
    validate_judges emojis (fun _ => none) line bare nonempty
  refine ⟨rfl, bare, nonempty, call, ⟨above, groups, below, first, last, output, ?_⟩,
    invalid.mpr ⟨"-c", by decide, by decide⟩⟩
  let row : String → String × String := fun statement =>
    (String.ofList ((display? emojis statement).getD []),
      if isStatement statement then "VALID" else "INVALID")
  have rows : line.statements.map row = [("-read@docs", "VALID"), ("-c", "INVALID"),
      ("-", "INVALID"), ("--help", "INVALID"), ("read@docs😄x", "VALID")] := by decide +kernel
  rw [← rows, List.forall₂_map_left_iff]
  refine judged.imp fun statement group seen => ?_
  obtain ⟨shown, display, same⟩ := seen
  rw [same]
  simp only [row, display, Option.getD_some, String.toList_ofList]

end Permits.Command
