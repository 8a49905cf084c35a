import Permits.Command.Run
import Permits.Proofs.Command.Options
import Permits.Proofs.Config.Settling
import Permits.Proofs.Decision.Deciding
import Permits.Proofs.Json.RoundTrip
import Permits.Proofs.Terminal.Markup

set_option autoImplicit false

namespace Permits.Command

open Terminal.Markup (Emojis)

/-- An option of a check, as it is written. -/
inductive CheckOption where
  | config (path : String) (joined : Bool)
  | strict
  | json
  deriving DecidableEq

namespace CheckOption

def piece : CheckOption → Piece
  | config path joined => .valued "config" path joined
  | strict => .flag "strict"
  | json => .flag "json"

def path? : CheckOption → Option String
  | config path _ => some path
  | _ => none

/-- What options say together. Of several paths the last one counts. -/
def settings (options : List CheckOption) : Settings :=
  ⟨(options.reverse.findSome? path?).getD defaultPath, strict ∈ options, json ∈ options⟩

def name : CheckOption → String
  | config _ _ => "config"
  | strict => "strict"
  | json => "json"

def given (option : CheckOption) : Given := ⟨option.name, option.path?⟩

theorem given_piece (option : CheckOption) : option.piece.given = [option.given] := by
  cases option <;> rfl

theorem arguments_piece (option : CheckOption) : option.piece.arguments = [] := by
  cases option <;> rfl

theorem takes_piece (option : CheckOption) : Verb.check.rules.Takes option.piece := by
  cases option with
  | config path joined => exact (by decide : Verb.check.rules.Names "config" true)
  | strict => exact (by decide : Verb.check.rules.Names "strict" false)
  | json => exact (by decide : Verb.check.rules.Names "json" false)

theorem flatMap_given (options : List CheckOption) :
    (options.map piece).flatMap Piece.given = options.map given := by
  rw [List.flatMap_map, List.map_eq_flatMap]
  simp only [given_piece]

theorem flatMap_arguments (options : List CheckOption) :
    (options.map piece).flatMap Piece.arguments = [] := by
  simp [List.flatMap_map, arguments_piece]

variable (options : List CheckOption) (arguments : List String)

theorem value?_config :
    (Parsed.mk (options.map given) arguments).value? "config" =
      options.reverse.findSome? path? := by
  rw [Parsed.value?, ← List.map_reverse]
  induction options.reverse with
  | nil => rfl
  | cons option rest ih =>
      cases option with
      | config path joined => rfl
      | strict => exact ih
      | json => exact ih

theorem has_name (sought : String) :
    (Parsed.mk (options.map given) arguments).has sought = options.any (·.name = sought) := by
  rw [Parsed.has, List.any_map]
  rfl

theorem name_eq_strict_iff (option : CheckOption) : option.name = "strict" ↔ option = strict := by
  cases option <;> simp [name]

theorem name_eq_json_iff (option : CheckOption) : option.name = "json" ↔ option = json := by
  cases option <;> simp [name]

theorem any_name_of_iff {sought : String} {only : CheckOption}
    (one : ∀ option : CheckOption, option.name = sought ↔ option = only) :
    options.any (·.name = sought) = decide (only ∈ options) := by
  rw [Bool.eq_iff_iff, List.any_eq_true]
  simp [one]

theorem any_name_help : options.any (·.name = "help") = false := by
  rw [List.any_eq_false]
  rintro (_ | _ | _) - <;> simp [name]

theorem settings_parsed :
    Command.settings ⟨options.map given, arguments⟩ = settings options := by
  rw [Command.settings, value?_config, has_name, has_name,
    any_name_of_iff options name_eq_strict_iff, any_name_of_iff options name_eq_json_iff]
  rfl

end CheckOption

/-- The arguments of a check: a request with options on both sides of it. -/
structure CheckLine where
  before : List CheckOption
  request : String
  after : List CheckOption

namespace CheckLine

def pieces (line : CheckLine) : List Piece :=
  line.before.map CheckOption.piece ++
    .argument line.request :: line.after.map CheckOption.piece

def words (line : CheckLine) : List String :=
  Verb.check.text :: line.pieces.flatMap Piece.words

def settings (line : CheckLine) : Settings := CheckOption.settings (line.before ++ line.after)

theorem read_words (line : CheckLine) (bare : IsBare line.request) :
    Verb.check.rules.read (line.pieces.flatMap Piece.words) =
      .ok ⟨(line.before ++ line.after).map CheckOption.given, [line.request]⟩ := by
  have roomy : Verb.check.rules.Roomy := ⟨rfl, rfl, by decide⟩
  have taken : ∀ piece ∈ line.pieces, Verb.check.rules.Takes piece := by
    intro piece present
    simp only [pieces, List.mem_append, List.mem_cons, List.mem_map] at present
    rcases present with ⟨option, -, rfl⟩ | rfl | ⟨option, -, rfl⟩
    · exact option.takes_piece
    · exact ⟨roomy, bare⟩
    · exact option.takes_piece
  rw [OptionRules.read_pieces taken]
  simp [pieces, CheckOption.flatMap_given, CheckOption.flatMap_arguments, Piece.given,
    Piece.arguments]

/-- The request is taken as it is, and the options say what to do with it, wherever they stand. -/
theorem callOf_words (line : CheckLine) (bare : IsBare line.request) {lookup : Lookup}
    {text : String} (present : lookup line.settings.path = some (.file text)) :
    callOf lookup line.words = .run (.check line.request line.settings) := by
  have help : (Parsed.mk ((line.before ++ line.after).map CheckOption.given) [line.request]).has
      "help" = false := by
    rw [CheckOption.has_name, CheckOption.any_name_help]
  have same : Command.settings
      ⟨(line.before ++ line.after).map CheckOption.given, [line.request]⟩ = line.settings :=
    CheckOption.settings_parsed _ _
  have required : requireFile lookup line.settings.path = .ok () := by
    rw [requireFile, present]
  have accepted : Verb.check.command lookup
      ⟨(line.before ++ line.after).map CheckOption.given, [line.request]⟩ =
        .ok (.check line.request line.settings) := by
    simp only [Verb.command, same, required]
    rfl
  exact callOf_of_read (line.read_words bare) help accepted

end CheckLine

variable (emojis : Emojis)

theorem exists_withDisplay (text : String) (next : List Char → Outcome) :
    ∃ shown, withDisplay emojis text next = next shown := by
  obtain ⟨shown, same⟩ := Terminal.Markup.exists_display? emojis text
  exact ⟨shown, by rw [withDisplay, same]⟩

namespace Outcome

/-- How a run ended: with an exit code and without a breakdown. -/
def Ends (outcome : Outcome) (exitCode : Nat) : Prop :=
  outcome.exitCode = exitCode ∧ outcome.breakdown = none

theorem ends_prints (exitCode : Nat) (output : String) : (prints exitCode output).Ends exitCode :=
  ⟨rfl, rfl⟩

theorem ends_reports (exitCode : Nat) (errors : String) :
    (reports exitCode errors).Ends exitCode :=
  ⟨rfl, rfl⟩

theorem Ends.after {outcome : Outcome} {exitCode : Nat} (ends : outcome.Ends exitCode)
    (records : List Record) : (outcome.after records).Ends exitCode :=
  ends

end Outcome

theorem refusedConfig_ends (error : ConfigError) : (refusedConfig emojis error).Ends 2 := by
  obtain ⟨shown, same⟩ := exists_withDisplay emojis error.message _
  rw [refusedConfig, same]
  exact Outcome.ends_reports 2 _

theorem decisionText_ends (request : String) (decision : Decision) :
    (decisionText emojis request decision.report).Ends (decisionCode decision.report) := by
  obtain ⟨shown, same⟩ := exists_withDisplay emojis request _
  rw [decisionText, same]
  cases decision with
  | invalid => exact Outcome.ends_reports 2 _
  | unknownApp _ | unsettled | settled _ _ _ _ =>
      -- the message is shown next, and nothing it says changes the code
      obtain ⟨message, same⟩ := exists_withDisplay emojis _ _
      exact same ▸ Outcome.ends_prints _ _

theorem explain_ofText (guard : Guard) (request : String) :
    guard.explain (.ofText request) =
      ((Statement.parse? request).map guard.tree.settle).getD .invalid := by
  have same : (Value.ofText request).statement? = Statement.parse? request := rfl
  rw [Guard.explain, Tree.authorize, same]
  cases Statement.parse? request <;> rfl

/-- The exit code of an answer by a guard: the request is granted, denied, or refused. -/
def answerCode (guard : Except LoadFault Guard) (request : String) : Nat :=
  match guard with
  | .ok guard =>
      if guard.allows (.ofText request) then 0 else if isStatement request then 1 else 2
  | .error _ => 2

theorem decisionCode_explain (guard : Guard) (request : String) :
    decisionCode (guard.explain (.ofText request)).report = answerCode (.ok guard) request := by
  rw [answerCode, Guard.allows, explain_ofText, ← Statement.isSome_parse?]
  cases Statement.parse? request with
  | none => rfl
  | some statement =>
      have ok := guard.tree.ok_settle statement
      simp [decisionCode, ok, Decision.authorized]

theorem isStatement_of_allows {guard : Guard} {request : String}
    (allowed : guard.allows (.ofText request) = true) : isStatement request = true := by
  rw [Guard.allows, explain_ofText] at allowed
  rw [← Statement.isSome_parse?]
  cases read : Statement.parse? request with
  | none =>
      rw [read] at allowed
      cases allowed
  | some statement => rfl

section AnswerCode

variable {guard : Except LoadFault Guard} {request : String}

theorem answerCode_eq_zero_iff : answerCode guard request = 0 ↔
    ∃ ready, guard = .ok ready ∧ ready.allows (.ofText request) = true := by
  cases guard with
  | error fault => simp [answerCode]
  | ok ready =>
      rw [answerCode]
      split <;> rename_i allowed
      · simp [allowed]
      · split <;> simp [allowed]

theorem answerCode_eq_one_iff : answerCode guard request = 1 ↔
    ∃ ready, guard = .ok ready ∧ isStatement request = true ∧
      ready.allows (.ofText request) = false := by
  cases guard with
  | error fault => simp [answerCode]
  | ok ready =>
      rw [answerCode]
      split <;> rename_i allowed
      · simp [allowed]
      · split <;> rename_i valid <;> simp [allowed, valid]

theorem answerCode_eq_two_iff : answerCode guard request = 2 ↔
    (∃ fault, guard = .error fault) ∨ isStatement request = false := by
  cases guard with
  | error fault => simp [answerCode]
  | ok ready =>
      rw [answerCode]
      split <;> rename_i allowed
      · simp [isStatement_of_allows allowed]
      · split <;> rename_i valid <;> simp [valid]

end AnswerCode

theorem exists_withTree_of_loaded {lookup : Lookup} {settings : Settings} {config : Config}
    (loaded : Config.loadFile settings.strict lookup settings.path = .ok config)
    (next : Tree → Outcome) :
    ∃ records, withTree emojis lookup settings next =
      (next (Guard.ofTexts config.statementBlocks).1.tree).after records := by
  rw [withTree, loaded]
  exact ⟨_, rfl⟩

theorem runCheck_of_refused {lookup : Lookup} {settings : Settings} {error : ConfigError}
    (refused : Config.loadFile settings.strict lookup settings.path = .error (.refused error))
    (request : String) : (runCheck emojis lookup request settings).Ends 2 := by
  have same : runCheck emojis lookup request settings = refusedConfig emojis error := by
    rw [runCheck, withTree, refused]
  rw [same]
  exact refusedConfig_ends emojis error

theorem ofFile_of_refused {strict : Bool} {lookup : Lookup} {path : String} {error : ConfigError}
    (refused : Config.loadFile strict lookup path = .error (.refused error)) :
    (Guard.ofFile strict lookup path).1 = .error (.refused error) := by
  rw [Guard.ofFile, refused]

theorem ofFile_of_loaded {strict : Bool} {lookup : Lookup} {path : String} {config : Config}
    (loaded : Config.loadFile strict lookup path = .ok config) :
    (Guard.ofFile strict lookup path).1 = .ok (Guard.ofTexts config.statementBlocks).1 := by
  rw [Guard.ofFile, loaded]

section Loaded

variable {lookup : Lookup} {settings : Settings} {config : Config}
  (loaded : Config.loadFile settings.strict lookup settings.path = .ok config) (request : String)
include loaded

theorem runCheck_of_loaded :
    (runCheck emojis lookup request settings).Ends
      (decisionCode
        ((Guard.ofTexts config.statementBlocks).1.explain (.ofText request)).report) := by
  obtain ⟨records, same⟩ := exists_withTree_of_loaded emojis loaded _
  rw [runCheck, same]
  cases settings.json with
  | true => exact ((Outcome.ends_prints _ _).after _).after _
  | false => exact ((decisionText_ends emojis request _).after _).after _

theorem read?_output_of_loaded (asked : settings.json = true) :
    Json.read? (runCheck emojis lookup request settings).output =
      some ((Guard.ofTexts config.statementBlocks).1.explain (.ofText request)).report.json := by
  obtain ⟨records, same⟩ := exists_withTree_of_loaded emojis loaded _
  rw [runCheck, same]
  simp only [asked]
  exact Json.read?_compact _

end Loaded

/-- Whether a load ends as it should: with a configuration, or with a refusal that says why not. -/
def Accounted (result : Except LoadFault Config) : Prop :=
  (∃ config, result = .ok config) ∨ ∃ error, result = .error (.refused error)

theorem exists_refused_iff {strict : Bool} {lookup : Lookup} {path : String}
    (accounted : Accounted (Config.loadFile strict lookup path)) :
    (∃ error, (Guard.ofFile strict lookup path).1 = .error (.refused error)) ↔
      ∃ fault, (Guard.ofFile strict lookup path).1 = .error fault := by
  constructor
  · rintro ⟨error, refused⟩
    exact ⟨_, refused⟩
  · rintro ⟨fault, failed⟩
    rcases accounted with ⟨config, loaded⟩ | ⟨error, refused⟩
    · rw [ofFile_of_loaded loaded] at failed
      cases failed
    · exact ⟨error, ofFile_of_refused refused⟩

theorem exists_loaded_of_ofFile {strict : Bool} {lookup : Lookup} {path : String} {guard : Guard}
    (built : (Guard.ofFile strict lookup path).1 = .ok guard) :
    ∃ config, Config.loadFile strict lookup path = .ok config ∧
      (Guard.ofTexts config.statementBlocks).1 = guard := by
  rw [Guard.ofFile] at built
  cases loaded : Config.loadFile strict lookup path with
  | error fault =>
      rw [loaded] at built
      cases built
  | ok config =>
      rw [loaded] at built
      exact ⟨config, rfl, Except.ok.inj built⟩

theorem Accounted.of_settles {source : Option String} {result : Except LoadFault Config}
    (settles : Config.Settles source result) : Accounted result :=
  ((Config.settles_iff source result).mp settles).imp_right fun ⟨_, refused⟩ => ⟨_, refused⟩

theorem runCheck_ends {lookup : Lookup} {settings : Settings}
    (accounted : Accounted (Config.loadFile settings.strict lookup settings.path))
    (request : String) :
    (runCheck emojis lookup request settings).Ends
      (answerCode (Guard.ofFile settings.strict lookup settings.path).1 request) := by
  rcases accounted with ⟨config, loaded⟩ | ⟨error, refused⟩
  · rw [ofFile_of_loaded loaded, ← decisionCode_explain]
    exact runCheck_of_loaded emojis loaded request
  · rw [ofFile_of_refused refused]
    exact runCheck_of_refused emojis refused request

theorem CheckLine.run_ends {lookup : Lookup} (line : CheckLine) (bare : IsBare line.request)
    {text : String} (present : lookup line.settings.path = some (.file text))
    (accounted : Accounted (Config.loadFile line.settings.strict lookup line.settings.path)) :
    (run emojis lookup line.words).Ends
      (answerCode (Guard.ofFile line.settings.strict lookup line.settings.path).1
        line.request) := by
  rw [run, line.callOf_words bare present]
  exact runCheck_ends emojis accounted line.request

/-- A check agrees with the guard of the same file, wherever its options stand: it exits with zero
if the guard allows the request, with two if the configuration or the request is refused, and with
one if the request is denied. The request is taken as it is written, hyphen or not. Asking for JSON
changes no exit code, and what it prints is read as the report of the guard. -/
theorem check_agrees (lookup : Lookup) (line : CheckLine) (bare : IsBare line.request)
    {text : String} (present : lookup line.settings.path = some (.file text))
    (accounted : Accounted (Config.loadFile line.settings.strict lookup line.settings.path)) :
    let guard := (Guard.ofFile line.settings.strict lookup line.settings.path).1
    let outcome := run emojis lookup line.words
    callOf lookup line.words = .run (.check line.request line.settings) ∧
    outcome.breakdown = none ∧
    (outcome.exitCode = 0 ↔
      ∃ ready, guard = .ok ready ∧ ready.allows (.ofText line.request) = true) ∧
    (outcome.exitCode = 2 ↔
      (∃ error, guard = .error (.refused error)) ∨ isStatement line.request = false) ∧
    (outcome.exitCode = 1 ↔
      ∃ ready, guard = .ok ready ∧ isStatement line.request = true ∧
        ready.allows (.ofText line.request) = false) ∧
    (∀ other : CheckLine, other.request = line.request →
      other.settings.path = line.settings.path → other.settings.strict = line.settings.strict →
      (run emojis lookup other.words).exitCode = outcome.exitCode) ∧
    (line.settings.json = true → ∀ ready, guard = .ok ready →
      Json.read? outcome.output = some (ready.explain (.ofText line.request)).report.json) := by
  intro guard outcome
  obtain ⟨code, ends⟩ : outcome.Ends (answerCode guard line.request) :=
    line.run_ends emojis bare present accounted
  refine ⟨line.callOf_words bare present, ends, ?_, ?_, ?_, ?_, ?_⟩
  · rw [code, answerCode_eq_zero_iff]
  · rw [code, answerCode_eq_two_iff]
    exact or_congr_left (exists_refused_iff accounted).symm
  · rw [code, answerCode_eq_one_iff]
  · intro other request path strict
    have otherEnds := other.run_ends emojis (request ▸ bare) (path ▸ present)
      (by rw [path, strict]; exact accounted)
    rw [request, path, strict] at otherEnds
    exact otherEnds.1.trans code.symm
  · intro asked ready same
    obtain ⟨config, loaded, rfl⟩ := exists_loaded_of_ofFile same
    change Json.read? (run emojis lookup line.words).output = _
    rw [run, line.callOf_words bare present]
    exact read?_output_of_loaded emojis loaded line.request asked

/-- A request with a hyphen in front stands between the options, the file is named by an absolute
path, and the guard allows the request. -/
theorem check_agrees_hyphen :
    let lookup : Lookup := fun path =>
      if path = "/d/p.yaml" then some (.file "blocks:\n- statements: [read@docs]\n") else none
    let line : CheckLine := ⟨[.json], "-read@docs", [.strict, .config "/d/p.yaml" false]⟩
    let outcome := run (fun _ => none) lookup line.words
    line.words = ["check", "--json", "-read@docs", "--strict", "--config", "/d/p.yaml"] ∧
      IsBare line.request ∧
      Accounted (Config.loadFile line.settings.strict lookup line.settings.path) ∧
      outcome.exitCode = 0 ∧
      ∃ ready, (Guard.ofFile true lookup "/d/p.yaml").1 = .ok ready ∧
        ready.allows (.ofText "-read@docs") = true := by
  intro lookup line outcome
  have bare : IsBare line.request := by decide
  have present : lookup line.settings.path =
      some (.file "blocks:\n- statements: [read@docs]\n") := by
    decide +kernel
  have accounted : Accounted (Config.loadFile line.settings.strict lookup line.settings.path) :=
    Accounted.of_settles (by decide +kernel : Config.Settles (some "/d/p.yaml") _)
  have granted : outcome.exitCode = 0 := by decide +kernel
  exact ⟨rfl, bare, accounted, granted,
    (check_agrees (fun _ => none) lookup line bare present accounted).2.2.1.mp granted⟩

end Permits.Command
