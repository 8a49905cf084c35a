import Permits.Proofs.Command.Build
import Permits.Proofs.Statement.Characters
import Permits.Proofs.Tree.Skeleton

set_option autoImplicit false

namespace Permits.Command

open Terminal (Narrow Unbroken paragraph printed printed_append printed_injective stroke visible
  visible_append)
open Terminal.Listing (column columnWidth lines_column lines_column_congr margined mem_margined
  mem_of_mem_top shown shown_of_narrow top wordOf wordOf_margined)
open Terminal.Markup (Emojis emojify)

/-- Whether a line bears the sign of a statement. -/
def isSigned (line : List Char) : Bool := line.any fun c => c = '+' || c = '-'

/-- A line apart from the rows: it bears no sign and has no break. -/
def IsPlain (line : List Char) : Prop := isSigned line = false ∧ '\n' ∉ line

instance decidableIsPlain (line : List Char) : Decidable (IsPlain line) :=
  inferInstanceAs (Decidable (_ ∧ _))

theorem isPlain_iff {line : List Char} :
    IsPlain line ↔ ∀ c ∈ line, c ≠ '+' ∧ c ≠ '-' ∧ c ≠ '\n' := by
  rw [IsPlain, isSigned, List.any_eq_false]
  constructor
  · rintro ⟨unsigned, unbroken⟩ c present
    have none := unsigned c present
    simp only [Bool.or_eq_true, decide_eq_true_eq, not_or] at none
    exact ⟨none.1, none.2, fun newline => unbroken (newline ▸ present)⟩
  · intro other
    refine ⟨?_, fun newline => (other '\n' newline).2.2 rfl⟩
    intro c present
    obtain ⟨plus, minus, -⟩ := other c present
    simp [plus, minus]

theorem IsPlain.of_subset {line wider : List Char} (plain : IsPlain wider)
    (inside : ∀ c ∈ line, c ∈ wider) : IsPlain line :=
  isPlain_iff.mpr fun c present => isPlain_iff.mp plain c (inside c present)

def countsText (apps statements : Nat) : List Char :=
  ("  Apps: " ++ toString apps ++ "  Statements: " ++ toString statements).toList

theorem countsText_eq (apps statements : Nat) :
    countsText apps statements = "  Apps: ".toList ++ Nat.toDigits 10 apps ++
      "  Statements: ".toList ++ Nat.toDigits 10 statements := by
  have digits (n : Nat) : (toString n).toList = Nat.toDigits 10 n := Nat.toList_repr
  simp only [countsText, String.toList_append, digits]

theorem isGraphic_of_isDigit {c : Char} (digit : c.isDigit = true) : IsGraphic c :=
  .of_isAlphanum (by simp [Char.isAlphanum, digit])

theorem isDigit_of_mem_toDigits {n : Nat} {c : Char} (present : c ∈ Nat.toDigits 10 n) :
    c.isDigit = true := Nat.isDigit_of_mem_toDigits (by decide) (by decide) present

theorem mem_countsText {apps statements : Nat} {c : Char}
    (present : c ∈ countsText apps statements) :
    c ∈ "  Apps: ".toList ++ "  Statements: ".toList ∨ c.isDigit = true := by
  rw [countsText_eq, List.mem_append, List.mem_append, List.mem_append] at present
  rcases present with ((name | number) | name) | number
  · exact Or.inl (List.mem_append_left _ name)
  · exact Or.inr (isDigit_of_mem_toDigits number)
  · exact Or.inl (List.mem_append_right _ name)
  · exact Or.inr (isDigit_of_mem_toDigits number)

theorem narrow_countsText (apps statements : Nat) : Narrow (countsText apps statements) := by
  have names : Narrow ("  Apps: ".toList ++ "  Statements: ".toList) := by decide
  intro c present
  rcases mem_countsText present with name | digit
  · exact names c name
  · exact (isGraphic_of_isDigit digit).charWidth

theorem isPlain_countsText (apps statements : Nat) : IsPlain (countsText apps statements) := by
  have names : IsPlain ("  Apps: ".toList ++ "  Statements: ".toList) := by decide
  rw [isPlain_iff] at names ⊢
  intro c present
  rcases mem_countsText present with name | digit
  · exact names c name
  · refine ⟨?_, ?_, ?_⟩ <;> rintro rfl <;> cases digit

theorem visible_countsText (apps statements : Nat) :
    visible (countsText apps statements) = "Apps:".toList ++ Nat.toDigits 10 apps ++
      ("Statements:".toList ++ Nat.toDigits 10 statements) := by
  have digits (n : Nat) : visible (Nat.toDigits 10 n) = Nat.toDigits 10 n :=
    Terminal.visible_of_no_blank fun c present =>
      (isGraphic_of_isDigit (isDigit_of_mem_toDigits present)).isBlank
  have apps' : visible "  Apps: ".toList = "Apps:".toList := by decide
  have statements' : visible "  Statements: ".toList = "Statements:".toList := by decide
  rw [countsText_eq, visible_append, visible_append, visible_append, digits, digits, apps',
    statements', List.append_assoc]

section Counts

variable (apps statements : Nat)

theorem shows_countsText : (countsText apps statements).any (!Text.isBlank ·) = true := by
  rw [countsText_eq]
  rfl

theorem mem_of_mem_paragraph {line : List Char}
    (present : line ∈ paragraph (countsText apps statements)) {c : Char} (here : c ∈ line) :
    c ∈ countsText apps statements :=
  Terminal.mem_of_mem_wrap_fold (by decide) (narrow_countsText apps statements)
    (shows_countsText apps statements) present here

theorem visible_paragraph : visible (paragraph (countsText apps statements)).flatten =
    visible (countsText apps statements) :=
  Terminal.visible_wrap_fold (by decide) (narrow_countsText apps statements)
    (shows_countsText apps statements)

end Counts

theorem apps_eq_of_paragraph_eq {apps apps' statements : Nat}
    (same : paragraph (countsText apps statements) = paragraph (countsText apps' statements)) :
    apps = apps' := by
  have seen := congrArg (fun lines => visible lines.flatten) same
  simp only [visible_paragraph, visible_countsText] at seen
  have digits := List.append_cancel_left (List.append_cancel_right seen)
  have read := Text.digits?_toDigits (by decide : 1 < 10) (by decide) apps
  rw [digits, Text.digits?_toDigits (by decide) (by decide)] at read
  exact (Option.some.inj read).symm

/-- What a row shows of a statement: the whole of it, or as much as fits in front of an ellipsis. -/
def rowText (statement : String) : List Char :=
  if statement.length ≤ 76 then statement.toList else statement.toList.take 75 ++ ['…']

theorem rowText_eq_toList_iff (statement : String) :
    rowText statement = statement.toList ↔ statement.length ≤ 76 := by
  constructor
  · intro whole
    rw [rowText] at whole
    split at whole
    · assumption
    · have size := congrArg List.length whole
      rw [List.length_append, List.length_take, List.length_singleton, String.length_toList] at size
      omega
  · exact fun short => if_pos short

def tableTitle : List Char := "Effective Permissions".toList

def tableHeading : List Char := "Statement".toList

def statementColumn (statements : List String) : Terminal.Listing :=
  column tableTitle tableHeading (statements.map String.toList)

theorem statementListing_eq_column {emojis : Emojis} {statements : List String}
    (whole : ∀ statement ∈ statements, emojify emojis statement.toList = statement.toList) :
    statementListing emojis statements = statementColumn statements := by
  have cells : statements.map (fun statement => [emojify emojis statement.toList]) =
      statements.map fun statement => [statement.toList] :=
    List.map_congr_left fun statement listed => by rw [whole statement listed]
  unfold statementListing statementColumn column
  rw [cells, List.map_map]
  rfl

theorem unbroken_tableHeading : Unbroken tableHeading :=
  .of_all (by decide) (by decide) (by decide)

/-- The lines of the table and of the numbers below it. -/
def treeLines (tree : Tree) : List (List Char) :=
  (statementColumn tree.statements).lines ++
    paragraph (countsText tree.length tree.statements.length)

theorem treeText_eq {emojis : Emojis} {tree : Tree} (nonempty : tree.statements ≠ [])
    (whole : ∀ statement ∈ tree.statements,
      emojify emojis statement.toList = statement.toList) :
    treeText emojis tree = printed (treeLines tree) := by
  have some : tree.statements.isEmpty = false := List.isEmpty_eq_false_iff.mpr nonempty
  rw [treeLines, printed_append, treeText, ← statementListing_eq_column whole]
  simp only [some]
  rfl

def tableWidth (tree : Tree) : Nat :=
  columnWidth tableHeading (tree.statements.map String.toList)

def tableTop (width : Nat) : List (List Char) :=
  top (width + 4) tableTitle [margined width tableHeading]

section Shape

variable {tree : Tree} (good : tree.WellFormed)
include good

theorem exists_of_mem_statements {text : String} (listed : text ∈ tree.statements) :
    ∃ statement : Statement, statement.WellFormed ∧ text = statement.text := by
  rw [Tree.statements_eq_map] at listed
  obtain ⟨entry, settled, rfl⟩ := List.mem_map.mp listed
  obtain ⟨parts, key⟩ := Tree.wellFormed_statementOf good settled
  have resource : (Tree.statementOf entry).resource = entry.1.resource := congrArg Key.resource key
  refine ⟨Tree.statementOf entry, parts, ?_⟩
  rw [Statement.text, resource]
  rfl

theorem unbroken_cells : ∀ cell ∈ tree.statements.map String.toList, Unbroken cell := by
  intro cell present
  obtain ⟨text, listed, rfl⟩ := List.mem_map.mp present
  obtain ⟨statement, parts, rfl⟩ := exists_of_mem_statements good listed
  exact parts.unbroken_text

theorem shown_listed {text : String} (listed : text ∈ tree.statements) :
    shown text.toList = rowText text := by
  have unbroken := unbroken_cells good _ (List.mem_map_of_mem listed)
  rw [shown_of_narrow unbroken.narrow, rowText, String.length_toList]
  rfl

/-- A row shows characters of its statement and the ellipsis, and begins with the sign. -/
theorem of_mem_rowText {text : String} (listed : text ∈ tree.statements) :
    (∃ sign rest, rowText text = sign :: rest ∧ (sign = '+' ∨ sign = '-')) ∧
      ∀ c ∈ rowText text, IsGraphic c ∨ c = '…' := by
  obtain ⟨statement, parts, rfl⟩ := exists_of_mem_statements good listed
  obtain ⟨sign, rest, front, signs⟩ := parts.exists_text_cons
  have graphic := parts.isGraphic_of_mem_text
  rw [rowText]
  split
  · exact ⟨⟨sign, rest, front, signs⟩, fun c present => Or.inl (graphic c present)⟩
  · refine ⟨⟨sign, rest.take 74 ++ ['…'], by rw [front]; rfl, signs⟩, ?_⟩
    intro c present
    rw [List.mem_append, List.mem_singleton] at present
    exact present.imp_left fun kept => graphic c (List.mem_of_mem_take kept)

theorem mem_rowText_ne {text : String} (listed : text ∈ tree.statements) {c : Char}
    (present : c ∈ rowText text) : c ≠ ' ' ∧ c ≠ '\n' := by
  rcases (of_mem_rowText good listed).2 c present with graphic | ellipsis
  · constructor <;> rintro rfl <;> exact absurd graphic (by decide)
  · rw [ellipsis]
    decide

theorem treeLines_eq :
    treeLines tree = tableTop (tableWidth tree) ++
      (tree.statements.map fun text => margined (tableWidth tree) (rowText text)) ++
        stroke ' ' (tableWidth tree + 4) ::
          paragraph (countsText tree.length tree.statements.length) := by
  have rows : (tree.statements.map String.toList).map (fun cell =>
      margined (tableWidth tree) (shown cell)) =
      tree.statements.map fun text => margined (tableWidth tree) (rowText text) := by
    rw [List.map_map]
    apply List.map_congr_left
    intro text listed
    rw [Function.comp_apply, shown_listed good listed]
  rw [treeLines, statementColumn, lines_column tableTitle unbroken_tableHeading
    (by decide) (unbroken_cells good), ← tableWidth, rows]
  simp [tableTop]

omit good in
theorem isPlain_of_mem_top {line : List Char}
    (present : line ∈ tableTop (tableWidth tree)) : IsPlain line := by
  have names : IsPlain (tableTitle ++ tableHeading ++ [' ', '─']) := by decide
  apply names.of_subset
  intro c here
  rcases mem_of_mem_top (by omega) (by decide) (by decide) present here with
    title | heading | space | rule
  · exact List.mem_append_left _ (List.mem_append_left _ title)
  · rw [List.flatten_singleton] at heading
    rcases mem_margined heading with inside | space
    · exact List.mem_append_left _ (List.mem_append_right _ inside)
    · exact List.mem_append_right _ (space ▸ List.mem_cons_self)
  · exact List.mem_append_right _ (space ▸ List.mem_cons_self)
  · exact List.mem_append_right _ (rule ▸ List.mem_cons_of_mem _ List.mem_cons_self)

omit good in
theorem isPlain_of_mem_foot {width apps statements : Nat} {line : List Char}
    (present : line ∈ stroke ' ' width :: paragraph (countsText apps statements)) :
    IsPlain line := by
  rcases List.mem_cons.mp present with rfl | below
  · have space : IsPlain [' '] := by decide
    exact space.of_subset fun c here => List.mem_singleton.mpr (List.eq_of_mem_replicate here)
  · exact (isPlain_countsText apps statements).of_subset fun c here =>
      mem_of_mem_paragraph apps statements below here

theorem of_mem_rows {line : List Char} (present : line ∈
      tree.statements.map fun text => margined (tableWidth tree) (rowText text)) :
    isSigned line = true ∧ '\n' ∉ line := by
  obtain ⟨text, listed, rfl⟩ := List.mem_map.mp present
  obtain ⟨sign, rest, front, signs⟩ := (of_mem_rowText good listed).1
  constructor
  · rw [isSigned, List.any_eq_true]
    refine ⟨sign, ?_, by simpa using signs⟩
    simp [margined, Terminal.padded, front]
  · intro newline
    rcases mem_margined newline with inside | space
    · exact (mem_rowText_ne good listed inside).2 rfl
    · cases space

theorem filter_treeLines : (treeLines tree).filter isSigned =
    tree.statements.map fun text => margined (tableWidth tree) (rowText text) := by
  have above : (tableTop (tableWidth tree)).filter isSigned = [] := by
    rw [List.filter_eq_nil_iff]
    intro line present
    simp [(isPlain_of_mem_top present).1]
  have below : (stroke ' ' (tableWidth tree + 4) ::
      paragraph (countsText tree.length tree.statements.length)).filter isSigned = [] := by
    rw [List.filter_eq_nil_iff]
    intro line present
    simp [(isPlain_of_mem_foot present).1]
  rw [treeLines_eq good, List.filter_append, List.filter_append, above, below, List.nil_append,
    List.append_nil, List.filter_eq_self]
  intro line present
  exact (of_mem_rows good present).1

theorem newline_not_mem_treeLines : ∀ line ∈ treeLines tree, '\n' ∉ line := by
  intro line present
  rw [treeLines_eq good, List.mem_append, List.mem_append] at present
  rcases present with (above | row) | below
  · exact (isPlain_of_mem_top above).2
  · exact (of_mem_rows good row).2
  · exact (isPlain_of_mem_foot below).2

theorem map_wordOf_treeLines :
    ((treeLines tree).filter isSigned).map wordOf = tree.statements.map rowText := by
  rw [filter_treeLines good, List.map_map]
  apply List.map_congr_left
  intro text listed
  exact wordOf_margined _ fun present => (mem_rowText_ne good listed present).1 rfl

variable {other : Tree} (good' : other.WellFormed)
include good'

/-- Two trees have the same lines exactly if their rows have the same texts and they have the same
number of apps. -/
theorem treeLines_eq_iff : treeLines other = treeLines tree ↔
    other.statements.map rowText = tree.statements.map rowText ∧ other.length = tree.length := by
  have tables (same : other.statements.map rowText = tree.statements.map rowText) :
      (statementColumn other.statements).lines = (statementColumn tree.statements).lines := by
    have cells {made : Tree} (shape : made.WellFormed) :
        (made.statements.map String.toList).map shown = made.statements.map rowText := by
      rw [List.map_map]
      exact List.map_congr_left fun text listed => shown_listed shape listed
    exact lines_column_congr tableTitle unbroken_tableHeading (by decide) (unbroken_cells good)
      (unbroken_cells good') (by rw [cells good', cells good, same])
  have counts (same : other.statements.map rowText = tree.statements.map rowText) :
      other.statements.length = tree.statements.length := by
    simpa using congrArg List.length same
  constructor
  · intro lines
    have same : other.statements.map rowText = tree.statements.map rowText := by
      rw [← map_wordOf_treeLines good', lines, map_wordOf_treeLines good]
    refine ⟨same, ?_⟩
    rw [treeLines, treeLines, tables same, counts same] at lines
    exact apps_eq_of_paragraph_eq (List.append_cancel_left lines)
  · rintro ⟨same, apps⟩
    rw [treeLines, treeLines, tables same, counts same, apps]

omit good' in
theorem map_rowText_eq_iff (short : ∀ text ∈ tree.statements, text.length ≤ 76) :
    other.statements.map rowText = tree.statements.map rowText ↔
      other.statements = tree.statements := by
  have whole : tree.statements.map rowText = tree.statements.map String.toList :=
    List.map_congr_left fun text listed => if_pos (short text listed)
  constructor
  · intro same
    -- An ellipsis belongs to no statement, so nothing was cut on the other side either.
    have whole' : other.statements.map rowText = other.statements.map String.toList := by
      apply List.map_congr_left
      intro text listed
      have among : rowText text ∈ tree.statements.map String.toList := by
        rw [← whole, ← same]
        exact List.mem_map_of_mem listed
      obtain ⟨written, listed', written'⟩ := List.mem_map.mp among
      obtain ⟨statement, parts, rfl⟩ := exists_of_mem_statements good listed'
      rw [rowText]
      split
      · rfl
      · rename_i long
        rw [rowText, if_neg long] at written'
        have ellipsis : '…' ∈ statement.text.toList := by simp [written']
        exact absurd (parts.isGraphic_of_mem_text _ ellipsis) (by decide)
    rw [whole', whole] at same
    exact (List.map_inj_right fun _ _ => String.toList_injective).mp same
  · intro same
    rw [same]

theorem length_eq_of_statements_eq (same : other.statements = tree.statements) :
    other.length = tree.length := by
  have places := Tree.places_statements good'
  rw [same, Tree.places_statements good, Tree.keys_skeleton, Tree.keys_skeleton] at places
  have keys := (List.map_inj_right fun _ _ => Option.some.inj).mp places
  have told {made : Tree} (shape : made.WellFormed) :
      ((made.settled.map Prod.fst).flatMap Layer.apps.entered).eraseDups = Table.names made := by
    rw [List.flatMap_map]
    exact Tree.eraseDups_settled shape .apps
  have apps : Table.names other = Table.names tree := by
    rw [← told good', ← told good, keys]
  simpa [Table.names] using congrArg List.length apps

end Shape

theorem statements_ne_nil {tree : Tree} (good : tree.WellFormed) (nonempty : tree ≠ []) :
    tree.statements ≠ [] := by
  obtain ⟨⟨app, resources⟩, inTree⟩ := List.exists_mem_of_ne_nil tree nonempty
  obtain ⟨⟨path, permissions⟩, inApp, held⟩ := (good.resources _ inTree).exists_held
  obtain ⟨⟨permission, effect⟩, inPath⟩ := List.exists_mem_of_ne_nil permissions held
  apply List.ne_nil_of_mem
  exact List.mem_flatMap.mpr ⟨_, inTree, List.mem_flatMap.mpr ⟨_, inApp,
    List.mem_map_of_mem inPath⟩⟩

/-- Whether a build asks for no JSON and finds a file whose configuration loads and grants or denies
something, and no statement in effect has a name in it that the terminal replaces. -/
structure PrintsTable (emojis : Emojis) (lookup : Lookup) (options : List BuildOption)
    (config : Config) : Prop where
  asked : (buildSettings options).json = false
  present : ∃ text, lookup (buildSettings options).path = some (.file text)
  loaded : Config.loadFile (buildSettings options).strict lookup (buildSettings options).path =
    .ok config
  nonempty : treeOf config ≠ []
  whole : ∀ statement ∈ (treeOf config).statements,
    emojify emojis statement.toList = statement.toList

namespace PrintsTable

variable {emojis : Emojis} {lookup : Lookup} {options : List BuildOption} {config : Config}

theorem run_eq (builds : PrintsTable emojis lookup options config) :
    ∃ records, run emojis lookup (buildWords options) =
      ⟨0, printed (treeLines (treeOf config)), "", records, none⟩ := by
  obtain ⟨records, same⟩ := exists_run_buildWords emojis builds.present builds.loaded
  have listed := statements_ne_nil (wellFormed_treeOf config) builds.nonempty
  rw [same, builds.asked, if_neg Bool.false_ne_true, treeText_eq listed builds.whole]
  exact ⟨records, rfl⟩

theorem output_eq_iff (builds : PrintsTable emojis lookup options config) {emojis' : Emojis}
    {lookup' : Lookup} {options' : List BuildOption} {config' : Config}
    (builds' : PrintsTable emojis' lookup' options' config') :
    (run emojis' lookup' (buildWords options')).output =
        (run emojis lookup (buildWords options)).output ↔
      (treeOf config').statements.map rowText = (treeOf config).statements.map rowText ∧
        (treeOf config').length = (treeOf config).length := by
  have good := wellFormed_treeOf config
  have good' := wellFormed_treeOf config'
  obtain ⟨records, same⟩ := builds.run_eq
  obtain ⟨records', same'⟩ := builds'.run_eq
  rw [same, same', ← treeLines_eq_iff good good']
  constructor
  · exact printed_injective (newline_not_mem_treeLines good') (newline_not_mem_treeLines good)
  · exact congrArg printed

theorem of_loads {text : String} {builder : Builder}
    (asked : (buildSettings options).json = false)
    (there : lookup (buildSettings options).path = some (.file text))
    (loads : (Config.loadFile (buildSettings options).strict lookup
      (buildSettings options).path).toOption.map (fun config =>
        (Builder.empty.buildTexts config.statementBlocks).builder) = some builder)
    (nonempty : builder.tree ≠ [])
    (whole : ∀ statement ∈ builder.tree.statements,
      emojify emojis statement.toList = statement.toList) :
    ∃ config, PrintsTable emojis lookup options config ∧ treeOf config = builder.tree := by
  obtain ⟨config, loaded, built⟩ := Option.map_eq_some_iff.mp loads
  have made : treeOf config = builder.tree := congrArg Builder.tree built
  exact ⟨config, ⟨asked, ⟨text, there⟩, Config.eq_ok_of_toOption loaded, made ▸ nonempty,
    made ▸ whole⟩, made⟩

end PrintsTable

/-- A build prints a table with one row for each statement in effect, in their order; no other line
bears a sign. Below it stand the numbers of apps and of settled places. A row shows its statement in
full exactly if that has no more than 76 characters. So two builds print the same if and only if
they show the same of their statements and have the same number of apps. Where all statements of one
of them are shown in full, they print the same if and only if their statements are the same. -/
theorem build_lists_statements {emojis : Emojis} {lookup : Lookup} {options : List BuildOption}
    {config : Config}
    (builds : PrintsTable emojis lookup options config) :
    let outcome := run emojis lookup (buildWords options)
    let tree := treeOf config
    outcome.exitCode = 0 ∧ outcome.errors = "" ∧ outcome.breakdown = none ∧
      (∃ width above blank below,
        outcome.output = printed (above ++
          tree.statements.map (fun statement => margined width (rowText statement)) ++
            blank :: below) ∧
        below = paragraph (countsText tree.length tree.skeleton.keys.length) ∧
        ∀ line ∈ above ++ blank :: below, isSigned line = false) ∧
      (∀ statement ∈ tree.statements,
        rowText statement = statement.toList ↔ statement.length ≤ 76) ∧
      ∀ emojis' lookup' options' config', PrintsTable emojis' lookup' options' config' →
        ((run emojis' lookup' (buildWords options')).output = outcome.output ↔
          (treeOf config').statements.map rowText = tree.statements.map rowText ∧
            (treeOf config').length = tree.length) ∧
        ((∀ statement ∈ tree.statements, statement.length ≤ 76) →
          ((run emojis' lookup' (buildWords options')).output = outcome.output ↔
            (treeOf config').statements = tree.statements)) := by
  intro outcome tree
  have good : tree.WellFormed := wellFormed_treeOf config
  obtain ⟨records, same⟩ := builds.run_eq
  have result : outcome = ⟨0, printed (treeLines tree), "", records, none⟩ := same
  have counted : tree.skeleton.keys.length = tree.statements.length := by
    simpa using (congrArg List.length (Tree.places_statements good)).symm
  refine ⟨by rw [result], by rw [result], by rw [result], ?_, ?_, ?_⟩
  · refine ⟨tableWidth tree, tableTop (tableWidth tree),
      stroke ' ' (tableWidth tree + 4),
      paragraph (countsText tree.length tree.skeleton.keys.length), ?_, rfl, ?_⟩
    · rw [result, treeLines_eq good, counted]
    · intro line present
      rcases List.mem_append.mp present with above | below
      · exact (isPlain_of_mem_top above).1
      · exact (isPlain_of_mem_foot below).1
  · intro statement _
    exact rowText_eq_toList_iff statement
  · intro emojis' lookup' options' config' builds'
    have told := builds.output_eq_iff builds'
    refine ⟨told, ?_⟩
    intro short
    rw [told, map_rowText_eq_iff good short, and_iff_left_iff_imp]
    exact length_eq_of_statements_eq good (wellFormed_treeOf config')

/-- A statement that is written twice, and the other way round, is shown once. -/
theorem build_lists_statements_twice :
    let emojis : Emojis := fun name => if name = "smile" then some "😄" else none
    let lookup : Lookup := fun path => if path = "/d/permissions.yaml"
      then some (.file "blocks:\n- statements: [read@docs:a, -write@docs]\n") else none
    let lookup' : Lookup := fun path => if path = "permissions.yaml"
      then some (.file "blocks:\n- statements: [-read@docs:a, +read@docs:a, -write@docs]\n")
      else none
    let options : List BuildOption := [.letter "/d/permissions.yaml"]
    ∃ config config', PrintsTable emojis lookup options config ∧
      PrintsTable emojis lookup' [] config' ∧
      (treeOf config).statements = ["+read@docs:a", "-write@docs"] ∧
      (run emojis lookup' (buildWords [])).output =
        (run emojis lookup (buildWords options)).output := by
  intro emojis lookup lookup' options
  have there : lookup "/d/permissions.yaml" =
      some (.file "blocks:\n- statements: [read@docs:a, -write@docs]\n") := by decide +kernel
  have there' : lookup' "permissions.yaml" =
      some (.file "blocks:\n- statements: [-read@docs:a, +read@docs:a, -write@docs]\n") := by
    decide +kernel
  let tree : Tree := [("docs", [("a", [("read", .grant)]), ("", [("write", .deny)])])]
  have loads : (Config.loadFile false lookup "/d/permissions.yaml").toOption.map (fun config =>
      (Builder.empty.buildTexts config.statementBlocks).builder) = some ⟨tree, 1⟩ := by
    decide +kernel
  have loads' : (Config.loadFile false lookup' "permissions.yaml").toOption.map (fun config =>
      (Builder.empty.buildTexts config.statementBlocks).builder) = some ⟨tree, 1⟩ := by
    decide +kernel
  have whole : ∀ statement ∈ tree.statements,
      emojify emojis statement.toList = statement.toList := by decide +kernel
  have asked : (buildSettings options).json = false := rfl
  have asked' : (buildSettings []).json = false := rfl
  obtain ⟨config, builds, made⟩ := PrintsTable.of_loads asked there loads (by decide) whole
  obtain ⟨config', builds', made'⟩ := PrintsTable.of_loads asked' there' loads' (by decide) whole
  have listed : (treeOf config).statements = ["+read@docs:a", "-write@docs"] := by
    rw [made]
    decide
  have short : ∀ statement ∈ (treeOf config).statements, statement.length ≤ 76 := by
    rw [listed]
    decide
  have equal := ((build_lists_statements builds).2.2.2.2.2 emojis lookup' [] config' builds').2
    short
  refine ⟨config, config', builds, builds', listed, equal.mpr ?_⟩
  rw [made, made']

/-- Statements of 77 characters that differ at their end are shown alike, and neither in full. -/
theorem not_build_tells_long_statements :
    let stem := "aaaaaaaaaaaaaaaaaaaaaaaaaaaaaaaaaaaaaaaaaaaaaaaaaaaaaaaaaaaaaaaaa"
    let emojis : Emojis := fun _ => none
    let lookup (last : String) : Lookup := fun path => if path = "permissions.yaml"
      then some (.file ("blocks:\n- statements: [read@docs:" ++ stem ++ last ++ "]\n")) else none
    ∃ config config', PrintsTable emojis (lookup "b") [] config ∧
      PrintsTable emojis (lookup "c") [] config' ∧
      (treeOf config).statements = ["+read@docs:" ++ stem ++ "b"] ∧
      (treeOf config').statements = ["+read@docs:" ++ stem ++ "c"] ∧
      rowText ("+read@docs:" ++ stem ++ "b") ≠ ("+read@docs:" ++ stem ++ "b").toList ∧
      (run emojis (lookup "c") (buildWords [])).output =
        (run emojis (lookup "b") (buildWords [])).output := by
  intro stem emojis lookup
  let tree (last : String) : Tree := [("docs", [(stem ++ last, [("read", .grant)]), ("", [])])]
  have built (last : String) (known : last = "b" ∨ last = "c") :
      ∃ config, PrintsTable emojis (lookup last) [] config ∧ treeOf config = tree last ∧
        (treeOf config).statements = ["+read@docs:" ++ stem ++ last] := by
    have there : lookup last "permissions.yaml" =
        some (.file ("blocks:\n- statements: [read@docs:" ++ stem ++ last ++ "]\n")) := by
      rcases known with rfl | rfl <;> decide +kernel
    have loads : (Config.loadFile false (lookup last) "permissions.yaml").toOption.map
        (fun config => (Builder.empty.buildTexts config.statementBlocks).builder) =
          some ⟨tree last, 1⟩ := by
      rcases known with rfl | rfl <;> decide +kernel
    have listed : (tree last).statements = ["+read@docs:" ++ stem ++ last] := by
      rcases known with rfl | rfl <;> decide +kernel
    have asked : (buildSettings []).json = false := rfl
    have whole : ∀ statement ∈ (tree last).statements,
        emojify emojis statement.toList = statement.toList :=
      fun _ _ => Terminal.Markup.emojify_of_unknown fun _ _ => rfl
    obtain ⟨config, builds, made⟩ :=
      PrintsTable.of_loads asked there loads (List.cons_ne_nil _ _) whole
    exact ⟨config, builds, made, made ▸ listed⟩
  obtain ⟨config, builds, made, listed⟩ := built "b" (Or.inl rfl)
  obtain ⟨config', builds', made', listed'⟩ := built "c" (Or.inr rfl)
  refine ⟨config, config', builds, builds', listed, listed', ?_, ?_⟩
  · rw [Ne, rowText_eq_toList_iff]
    decide +kernel
  · rw [builds.output_eq_iff builds', listed, listed', made, made']
    exact ⟨by decide +kernel, rfl⟩

end Permits.Command
