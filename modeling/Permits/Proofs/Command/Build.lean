import Permits.Proofs.Command.Check
import Permits.Proofs.Tree.Json

set_option autoImplicit false

namespace Permits.Command

open Terminal.Markup (Emojis)

/-- An option of a build, as it is written: one in full, or the letter of the configuration with the
path as the next word or in the same one. -/
inductive BuildOption where
  | full (option : CheckOption)
  | letter (path : String)
  | attached (path : String) (nonempty : path ≠ "")

namespace BuildOption

def words : BuildOption → List String
  | full option => option.piece.words
  | letter path => ["-c", path]
  | attached path _ => ["-c" ++ path]

def inFull : BuildOption → CheckOption
  | full option => option
  | letter path => .config path false
  | attached path _ => .config path false

theorem takes_piece (option : CheckOption) : Verb.build.rules.Takes option.piece := by
  cases option with
  | config path joined => exact (by decide : Verb.build.rules.Names "config" true)
  | strict => exact (by decide : Verb.build.rules.Names "strict" false)
  | json => exact (by decide : Verb.build.rules.Names "json" false)

theorem readDashed_attached {path : String} (nonempty : path ≠ "") :
    Verb.build.rules.readDashed ("-c" ++ path).toList =
      .ok ⟨[⟨"config", some path⟩], none, none⟩ := by
  have spelled : ("-c" ++ path).toList = '-' :: 'c' :: path.toList := by simp
  have bare : IsBare ("-c" ++ path) := by
    rw [IsBare, spelled]
    rintro ⟨later, same⟩
    simp at same
  obtain ⟨first, others, letters⟩ : ∃ first others, path.toList = first :: others :=
    List.exists_cons_of_ne_nil (by simpa using nonempty)
  have value : path = String.ofList (first :: others) := by rw [← letters, String.ofList_toList]
  rw [OptionRules.readDashed_of_isBare bare spelled, letters, value]
  rfl

theorem read_words (option : BuildOption) (rest : List String) :
    Verb.build.rules.read (option.words ++ rest) = (Verb.build.rules.read rest).map fun parsed =>
      ⟨option.inFull.given :: parsed.given, parsed.arguments⟩ := by
  cases option with
  | full option =>
      have read := OptionRules.read_piece (takes_piece option) rest
      rw [option.given_piece, option.arguments_piece] at read
      exact read
  | letter path =>
      rw [words, List.cons_append, List.cons_append, List.nil_append, OptionRules.read]
      rfl
  | attached path nonempty =>
      have dashed : OptionRules.isDashed ("-c" ++ path) = true := by simp [OptionRules.isDashed]
      have separate : "-c" ++ path ≠ "--" := fun same => by
        simpa using congrArg String.toList same
      rw [words, List.singleton_append, OptionRules.read, if_neg separate, if_pos dashed,
        readDashed_attached nonempty]
      rfl

theorem read_flatMap_words (options : List BuildOption) :
    Verb.build.rules.read (options.flatMap words) =
      .ok ⟨(options.map inFull).map CheckOption.given, []⟩ := by
  induction options with
  | nil => rfl
  | cons option rest ih =>
      rw [List.flatMap_cons, read_words, ih]
      rfl

end BuildOption

def buildWords (options : List BuildOption) : List String :=
  Verb.build.text :: options.flatMap BuildOption.words

/-- What the options of a build say together. -/
def buildSettings (options : List BuildOption) : Settings :=
  CheckOption.settings (options.map BuildOption.inFull)

theorem callOf_buildWords (options : List BuildOption) {lookup : Lookup} {text : String}
    (present : lookup (buildSettings options).path = some (.file text)) :
    callOf lookup (buildWords options) = .run (.build (buildSettings options)) := by
  let given := (options.map BuildOption.inFull).map CheckOption.given
  have help : (Parsed.mk given []).has "help" = false := by
    rw [CheckOption.has_name, CheckOption.any_name_help]
  have same : settings ⟨given, []⟩ = buildSettings options := CheckOption.settings_parsed _ _
  have required : requireFile lookup (buildSettings options).path = .ok () := by
    rw [requireFile, present]
  have accepted : Verb.build.command lookup ⟨given, []⟩ = .ok (.build (buildSettings options)) := by
    simp only [Verb.command, same, required]
    rfl
  exact callOf_of_read (BuildOption.read_flatMap_words options) help accepted

/-- The tree of a configuration. -/
def treeOf (config : Config) : Tree :=
  (Builder.empty.buildTexts config.statementBlocks).builder.tree

theorem wellFormed_treeOf (config : Config) : (treeOf config).WellFormed :=
  Tree.wellFormed_build _

variable (emojis : Emojis)

theorem exists_run_buildWords {lookup : Lookup} {options : List BuildOption} {config : Config}
    (present : ∃ text, lookup (buildSettings options).path = some (.file text))
    (loaded : Config.loadFile (buildSettings options).strict lookup (buildSettings options).path =
      .ok config) :
    ∃ records, run emojis lookup (buildWords options) =
      ⟨0, if (buildSettings options).json then (treeOf config).json.indented 0 ++ "\n"
        else treeText emojis (treeOf config), "", records, none⟩ := by
  obtain ⟨text, there⟩ := present
  obtain ⟨records, same⟩ := exists_withTree_of_loaded emojis loaded _
  rw [run, callOf_buildWords options there]
  change ∃ records, runBuild emojis lookup (buildSettings options) = _
  rw [runBuild, same]
  exact ⟨_, rfl⟩

/-- Whether a build asks for JSON and finds a file whose configuration loads. -/
structure PrintsJson (lookup : Lookup) (options : List BuildOption) (config : Config) : Prop where
  asked : (buildSettings options).json = true
  present : ∃ text, lookup (buildSettings options).path = some (.file text)
  loaded : Config.loadFile (buildSettings options).strict lookup (buildSettings options).path =
    .ok config

namespace PrintsJson

variable {lookup : Lookup} {options : List BuildOption} {config : Config}

theorem run_eq (builds : PrintsJson lookup options config) :
    ∃ records, run emojis lookup (buildWords options) =
      ⟨0, (treeOf config).json.indented 0 ++ "\n", "", records, none⟩ := by
  obtain ⟨records, same⟩ := exists_run_buildWords emojis builds.present builds.loaded
  rw [same, if_pos builds.asked]
  exact ⟨records, rfl⟩

theorem read_output (builds : PrintsJson lookup options config) :
    (Json.read? (run emojis lookup (buildWords options)).output).bind Tree.ofJson? =
      some (treeOf config) := by
  obtain ⟨records, same⟩ := builds.run_eq emojis
  rw [same, Json.read?_indented, Option.bind_some, Tree.ofJson?_json (wellFormed_treeOf config)]

end PrintsJson

/-- A build prints JSON that is read back as the tree of its configuration, with all its names in
their order. So two builds print the same text if and only if their trees are equal. -/
theorem build_prints_tree {lookup : Lookup} {options : List BuildOption} {config : Config}
    (builds : PrintsJson lookup options config) :
    let outcome := run emojis lookup (buildWords options)
    outcome.exitCode = 0 ∧ outcome.errors = "" ∧ outcome.breakdown = none ∧
      (∃ written, outcome.output = String.ofList written ++ "\n" ∧
        Json.Spells (treeOf config).json written) ∧
      (Json.read? outcome.output).bind Tree.ofJson? = some (treeOf config) ∧
      ∀ emojis' lookup' options' config', PrintsJson lookup' options' config' →
        ((run emojis' lookup' (buildWords options')).output = outcome.output ↔
          treeOf config' = treeOf config) := by
  intro outcome
  have read := builds.read_output emojis
  obtain ⟨records, same⟩ := builds.run_eq emojis
  have result : outcome = ⟨0, _, "", records, none⟩ := same
  refine ⟨by rw [result], by rw [result], by rw [result], ?_, read, ?_⟩
  · refine ⟨_, ?_, Json.spells_indented 0 (treeOf config).json⟩
    rw [result, String.ofList_toList]
  · intro emojis' lookup' options' config' builds'
    constructor
    · intro equal
      have read' := builds'.read_output emojis'
      rw [equal] at read'
      exact Option.some.inj (read'.symm.trans read)
    · intro equal
      obtain ⟨records', same'⟩ := builds'.run_eq emojis'
      rw [same', result, equal]

/-- The root of the app comes behind its first path and holds nothing, and is printed there. -/
theorem build_prints_tree_empty_root :
    let lookup : Lookup := fun path =>
      if path = "/p.yaml" then
        some (.file "blocks:\n- statements: [read@docs:a, -write@docs:a]\n")
      else none
    let options : List BuildOption := [.letter "/p.yaml", .full .json]
    let tree : Tree := [("docs", [("a", [("read", .grant), ("write", .deny)]), ("", [])])]
    buildWords options = ["build", "-c", "/p.yaml", "--json"] ∧
      ∃ config, PrintsJson lookup options config ∧ treeOf config = tree ∧
        (Json.read? (run (fun _ => none) lookup (buildWords options)).output).bind Tree.ofJson? =
          some tree := by
  intro lookup options tree
  have there : lookup "/p.yaml" =
      some (.file "blocks:\n- statements: [read@docs:a, -write@docs:a]\n") := by
    decide +kernel
  have loads : (Config.loadFile false lookup "/p.yaml").toOption.map (fun config =>
      (Builder.empty.buildTexts config.statementBlocks).builder) = some ⟨tree, 1⟩ := by
    decide +kernel
  obtain ⟨config, loaded, built⟩ := Option.map_eq_some_iff.mp loads
  have made : treeOf config = tree := congrArg Builder.tree built
  have builds : PrintsJson lookup options config :=
    ⟨rfl, ⟨_, there⟩, Config.eq_ok_of_toOption loaded⟩
  refine ⟨rfl, config, builds, made, ?_⟩
  rw [← made]
  exact (build_prints_tree (fun _ => none) builds).2.2.2.2.1

end Permits.Command
