import Permits.Config.Load
import Permits.Proofs.Config.Pruning
import Permits.Proofs.Tree.Run

set_option autoImplicit false

namespace Permits

/-- The statements of a block that are none, in order. -/
def BlockConfig.invalid (block : BlockConfig) : List String :=
  block.statements.filter (!isStatement ·)

namespace Config

/-- The keys of a configuration value, if it is a mapping. -/
def topKeys : Value → List Scalar
  | .map entries => entries.map Prod.fst
  | _ => []

/-- Whether every key of a configuration value is one of the known ones. -/
def KnownKeys (value : Value) : Prop :=
  ∀ key ∈ topKeys value, key = .text "version" ∨ key = .text "description" ∨ key = .text "blocks"

/-- Whether every statement of a configuration is one. -/
def AllStatements (config : Config) : Prop :=
  ∀ block ∈ config.blocks, ∀ text ∈ block.statements, isStatement text = true

theorem unknownKeys_eq_nil_iff (entries : Schema.Entries) :
    unknownKeys entries = [] ↔ KnownKeys (.map entries) := by
  rw [unknownKeys, List.filter_eq_nil_iff, KnownKeys]
  apply forall₂_congr
  intro key _
  cases key with
  | text name =>
      simp only [Schema.configFields, List.mem_cons, List.not_mem_nil, or_false, not_or,
        decide_eq_true_eq, Scalar.text.injEq]
      tauto
  | _ => simp

section Load

variable {source : Option String} {value : Value} {entries : Schema.Entries} {config : Config}

theorem load_lenient_map (source : Option String) (entries : Schema.Entries) :
    load false source (.map entries) =
      match Schema.check entries with
      | .error found => .error (.refused ⟨.issues found, source⟩)
      | .ok config => .ok config := by
  rw [load]
  simp only [Bool.false_eq_true, false_and, ↓reduceIte]
  cases Schema.check entries <;> rfl

theorem load_lenient_eq_ok_iff :
    load false source value = .ok config ↔
      ∃ entries, value = .map entries ∧ Schema.IsConfig entries ∧ config = Schema.read entries := by
  cases value with
  | map entries =>
      rw [load_lenient_map, Schema.check]
      cases found : Schema.issues entries with
      | nil =>
          have good := (Schema.issues_eq_nil_iff entries).mp found
          simp [good, eq_comm]
      | cons issue rest =>
          have bad : ¬ Schema.IsConfig entries := by
            rw [← Schema.issues_eq_nil_iff, found]
            exact List.cons_ne_nil _ _
          simp [bad]
  | scalar value => simp [load]
  | list items => simp [load]

/-- A strict load of unknown keys fails on them, and says which they are if they have an order. -/
theorem load_strict_map_of_unknown (source : Option String)
    (unknown : unknownKeys entries ≠ []) :
    load true source (.map entries) =
      match Scalar.sort? (unknownKeys entries) with
      | none => .error .unorderedKeys
      | some keys => .error (.refused ⟨.unknownKeys keys, source⟩) := by
  have present : (!(unknownKeys entries).isEmpty) = true := by
    rw [Bool.not_eq_true', List.isEmpty_eq_false_iff]
    exact unknown
  rw [load]
  simp only [present, and_self, ↓reduceIte]
  cases Scalar.sort? (unknownKeys entries) <;> rfl

/-- With known keys a strict load is a lenient one that looks at the statements afterwards. -/
theorem load_strict_of_known (source : Option String) (known : KnownKeys value) :
    load true source value =
      match load false source value with
      | .error fault => .error fault
      | .ok config =>
          match config.invalidBlock? with
          | some (block, invalid) => .error (.refused ⟨.invalidStatements block invalid, source⟩)
          | none => .ok config := by
  cases value with
  | map entries =>
      rw [load_lenient_map, load]
      -- The check of the keys is passed, and both loads go on to the schema.
      simp only [(unknownKeys_eq_nil_iff entries).mpr known, List.isEmpty_nil, Bool.not_true,
        Bool.false_eq_true, and_false, ↓reduceIte]
      cases Schema.check entries with
      | error found => rfl
      | ok config =>
          dsimp only
          cases config.invalidBlock? <;> rfl
  | scalar value => rfl
  | list items => rfl

theorem knownKeys_of_load_strict (loaded : load true source value = .ok config) :
    KnownKeys value := by
  cases value with
  | map entries =>
      rw [← unknownKeys_eq_nil_iff]
      by_contra unknown
      rw [load_strict_map_of_unknown source unknown] at loaded
      split at loaded <;> cases loaded
  | scalar value => exact fun _ present => nomatch present
  | list items => exact fun _ present => nomatch present

end Load

section InvalidBlock

variable {config : Config} {block : BlockConfig}

theorem invalid_eq_nil_iff : block.invalid = [] ↔
    ∀ text ∈ block.statements, isStatement text = true := by
  rw [BlockConfig.invalid, List.filter_eq_nil_iff]
  simp only [Bool.not_eq_true', Bool.not_eq_false]

theorem invalidBlock?_eq_findSome? (config : Config) :
    config.invalidBlock? = config.blocks.zipIdx.findSome? fun part =>
      if part.1.invalid = [] then none else some (part.1.nameAt part.2, part.1.invalid) := by
  rw [invalidBlock?]
  congr 1
  funext part
  obtain ⟨block, index⟩ := part
  dsimp only
  split
  · rename_i none
    exact (if_pos none).symm
  · rename_i some
    exact (if_neg some).symm

theorem invalidBlock?_eq_none_iff : config.invalidBlock? = none ↔ config.AllStatements := by
  simp only [invalidBlock?_eq_findSome?, List.findSome?_eq_none_iff, ite_eq_left_iff, reduceCtorEq,
    imp_false, not_not]
  rw [forall_mem_zipIdx_fst config.blocks fun block => block.invalid = [], AllStatements]
  simp only [invalid_eq_nil_iff]

theorem exists_of_invalidBlock? {name : String} {invalid : List String}
    (found : config.invalidBlock? = some (name, invalid)) :
    ∃ before block after, config.blocks = before ++ block :: after ∧
      (∀ earlier ∈ before, earlier.invalid = []) ∧ block.invalid ≠ [] ∧
      name = block.nameAt before.length ∧ invalid = block.invalid := by
  rw [invalidBlock?_eq_findSome?, List.findSome?_eq_some_iff] at found
  obtain ⟨front, ⟨block, index⟩, back, cut, reported, silent⟩ := found
  obtain ⟨before, rest, blocks, rfl, tail⟩ := List.zipIdx_eq_append_iff.mp cut
  cases rest with
  | nil => cases tail
  | cons first after =>
      rw [List.zipIdx_cons, List.cons.injEq, Prod.mk.injEq, Nat.zero_add] at tail
      obtain ⟨⟨rfl, rfl⟩, -⟩ := tail
      split at reported
      · cases reported
      · rename_i some
        rw [Option.some.injEq, Prod.mk.injEq] at reported
        refine ⟨before, block, after, blocks, ?_, some, reported.1.symm, reported.2.symm⟩
        rw [← forall_mem_zipIdx_fst before fun earlier => earlier.invalid = []]
        intro part listed
        simpa using silent part listed

end InvalidBlock

/-- The name that a block is reported by: the one that it was given, or the one of its index if it
was given none or an empty one. -/
theorem nameAt_eq (block : BlockConfig) (index : Nat) :
    block.nameAt index = if block.name.getD "" = "" then "block-" ++ toString index
      else block.name.getD "" := by
  rw [BlockConfig.nameAt]
  cases block.name <;> rfl

section Pruned

variable {source : Option String} {value : Value} {config : Config}

theorem allStatements_pruned (config : Config) : config.pruned.AllStatements := by
  intro block present text listed
  obtain ⟨original, -, rfl⟩ := List.mem_map.mp present
  exact List.of_mem_filter listed

theorem KnownKeys.pruned (known : KnownKeys value) : KnownKeys value.pruned := by
  cases value with
  | map entries =>
      rw [KnownKeys, topKeys] at known
      rw [Value.pruned, KnownKeys, topKeys, Schema.keys_changeField]
      exact known
  | scalar value => exact known
  | list items => exact known

theorem load_strict_pruned (loaded : load false source value = .ok config)
    (known : KnownKeys value) : load true source value.pruned = .ok config.pruned := by
  obtain ⟨entries, rfl, good, rfl⟩ := load_lenient_eq_ok_iff.mp loaded
  have lenient : load false source (Value.map entries).pruned =
      .ok (Schema.read entries).pruned :=
    load_lenient_eq_ok_iff.mpr ⟨_, rfl, good.pruned, (Schema.read_pruned entries).symm⟩
  have valid := invalidBlock?_eq_none_iff.mpr (allStatements_pruned (Schema.read entries))
  rw [load_strict_of_known source known.pruned, lenient]
  dsimp only
  rw [valid]

end Pruned

end Config

namespace Builder

theorem buildTexts_cons (builder : Builder) (texts : List String) (rest : List (List String)) :
    builder.buildTexts (texts :: rest) =
      let later := (builder.addBlock (texts.map .ofText) (builder.applied > 0)).buildTexts rest
      { later with records := blockRecords builder.applied (texts.map .ofText) ++ later.records } :=
  rfl

theorem records_buildTexts (builder : Builder) {blocks : List (List String)}
    (valid : ∀ texts ∈ blocks, ∀ text ∈ texts, isStatement text = true) :
    (builder.buildTexts blocks).records = [] := by
  induction blocks generalizing builder with
  | nil => rfl
  | cons texts rest ih =>
      rw [List.forall_mem_cons] at valid
      have accepted : (texts.map Value.ofText).filter (fun entry => entry.statement?.isNone) =
          [] := by
        rw [List.filter_eq_nil_iff, List.forall_mem_map]
        intro text present
        have read : (Value.ofText text).statement?.isSome = true := by
          rw [← valid.1 text present]
          exact Statement.isSome_parse? text
        simpa [← Option.isSome_iff_ne_none] using read
      have silent : blockRecords builder.applied (texts.map .ofText) = [] := by
        simp only [blockRecords, accepted, List.map_nil, List.isEmpty_nil, ↓reduceIte,
          List.append_nil]
      rw [buildTexts_cons]
      simp only [silent, List.nil_append]
      exact ih _ valid.2

theorem buildTexts_filter (builder : Builder) (blocks : List (List String)) :
    (builder.buildTexts (blocks.map (List.filter isStatement))).builder =
      (builder.buildTexts blocks).builder := by
  -- For all builders, since the first block leaves another one to the rest.
  induction blocks generalizing builder with
  | nil => rfl
  | cons texts rest ih =>
      have statements : ((texts.filter isStatement).map Value.ofText).filterMap Value.statement? =
          (texts.map Value.ofText).filterMap Value.statement? := by
        rw [List.filterMap_map, List.filterMap_map, List.filterMap_filter]
        apply List.filterMap_congr
        intro text _
        split
        · rfl
        · rename_i invalid
          symm
          rw [← Option.not_isSome_iff_eq_none]
          exact fun read => invalid ((Statement.isSome_parse? text).symm.trans read)
      have same : builder.addBlock ((texts.filter isStatement).map .ofText)
          (decide (builder.applied > 0)) =
          builder.addBlock (texts.map .ofText) (decide (builder.applied > 0)) := by
        rw [addBlock, addBlock, statements]
      rw [List.map_cons, buildTexts_cons, buildTexts_cons]
      dsimp only
      rw [same]
      exact ih _

end Builder

namespace Config

theorem load_strict_eq_ok_iff {source : Option String} {value : Value} {config : Config} :
    load true source value = .ok config ↔
      load false source value = .ok config ∧ KnownKeys value ∧ config.AllStatements := by
  constructor
  · intro strict
    have known := knownKeys_of_load_strict strict
    rw [load_strict_of_known source known] at strict
    cases loaded : load false source value with
    | error fault => simp [loaded] at strict
    | ok other =>
        rw [loaded] at strict
        dsimp only at strict
        split at strict
        · cases strict
        · rename_i valid
          obtain rfl := Except.ok.inj strict
          exact ⟨rfl, known, invalidBlock?_eq_none_iff.mp valid⟩
  · intro checked
    obtain ⟨loaded, known, valid⟩ := checked
    rw [load_strict_of_known source known, loaded]
    dsimp only
    rw [invalidBlock?_eq_none_iff.mpr valid]

/-- Where only the statements are at fault, the strict load names the first block with anything
invalid and lists what is invalid there. -/
theorem exists_block_of_load_lenient {source : Option String} {value : Value} {config : Config}
    (loaded : load false source value = .ok config) (known : KnownKeys value)
    (invalid : ¬ config.AllStatements) :
    ∃ before block after, config.blocks = before ++ block :: after ∧
      (∀ earlier ∈ before, earlier.invalid = []) ∧ block.invalid ≠ [] ∧
      load true source value = .error (.refused
        ⟨.invalidStatements (block.nameAt before.length) block.invalid, source⟩) := by
  cases found : config.invalidBlock? with
  | none => exact absurd (invalidBlock?_eq_none_iff.mp found) invalid
  | some reported =>
      obtain ⟨name, statements⟩ := reported
      obtain ⟨before, block, after, cut, silent, some, rfl, rfl⟩ := exists_of_invalidBlock? found
      refine ⟨before, block, after, cut, silent, some, ?_⟩
      rw [load_strict_of_known source known, loaded]
      dsimp only
      rw [found]

/-- Strict loading is lenient loading and two checks, of the keys and of the statements. What it
accepts is built without a record. If only statements are at fault, the refusal is about the first
block with any of them and lists these; and without them the value is accepted and makes the same
tree. -/
theorem load_strict_iff_lenient (source : Option String) (value : Value) :
    (∀ config, load true source value = .ok config ↔
        load false source value = .ok config ∧ KnownKeys value ∧ config.AllStatements) ∧
      (∀ config, load true source value = .ok config → ∀ builder : Builder,
        (builder.buildTexts config.statementBlocks).records = []) ∧
      (∀ config, load false source value = .ok config → KnownKeys value →
        ¬ config.AllStatements →
        (∃ before block after, config.blocks = before ++ block :: after ∧
          (∀ earlier ∈ before, ∀ text ∈ earlier.statements, isStatement text = true) ∧
          (∃ text ∈ block.statements, isStatement text = false) ∧
          let name := if block.name.getD "" = "" then "block-" ++ toString before.length
            else block.name.getD ""
          let invalid := block.statements.filter (!isStatement ·)
          let refusal := Refusal.invalidStatements name invalid
          load true source value = .error (.refused ⟨refusal, source⟩) ∧
            refusal.message = "Block '" ++ name ++ "' has invalid statements: " ++
              Text.quotedList invalid) ∧
        load true source value.pruned = .ok config.pruned ∧
          (Builder.empty.buildTexts config.statementBlocks).builder.tree =
            (Builder.empty.buildTexts config.pruned.statementBlocks).builder.tree) := by
  refine ⟨fun _ => load_strict_eq_ok_iff, ?_, ?_⟩
  · intro config strict builder
    have valid := (load_strict_eq_ok_iff.mp strict).2.2
    apply Builder.records_buildTexts
    intro texts listed
    obtain ⟨block, present, rfl⟩ := List.mem_map.mp listed
    exact valid block present
  · intro config loaded known invalid
    refine ⟨?_, load_strict_pruned loaded known, ?_⟩
    · obtain ⟨before, block, after, cut, silent, some, refused⟩ :=
        exists_block_of_load_lenient loaded known invalid
      refine ⟨before, block, after, cut, ?_, ?_, ?_⟩
      · intro earlier present
        exact invalid_eq_nil_iff.mp (silent earlier present)
      · obtain ⟨text, listed⟩ := List.exists_mem_of_ne_nil _ some
        obtain ⟨present, bad⟩ := List.mem_filter.mp listed
        exact ⟨text, present, by simpa using bad⟩
      · rw [← nameAt_eq]
        exact ⟨refused, rfl⟩
    · have blocks : config.pruned.statementBlocks =
          config.statementBlocks.map (List.filter isStatement) := by
        simp only [statementBlocks, pruned, List.map_map]
        rfl
      rw [blocks, Builder.buildTexts_filter]

/-- A block without a name holds two texts that are no statements. -/
theorem load_strict_iff_lenient_second_block :
    let viewer : Value := .map [(.text "name", .ofText "viewer"),
      (.text "statements", .list [.ofText "read@docs"])]
    let texts : Value := .list [.ofText "read", .ofText "-read@docs", .ofText "@docs"]
    let value : Value := .map [(.text "blocks", .list [viewer,
      .map [(.text "statements", texts)]])]
    let config : Config := ⟨"1", none, [⟨some "viewer", ["read@docs"], []⟩,
      ⟨none, ["read", "-read@docs", "@docs"], []⟩], []⟩
    load false none value = .ok config ∧ KnownKeys value ∧ ¬ config.AllStatements ∧
      load true none value =
        .error (.refused ⟨.invalidStatements "block-1" ["read", "@docs"], none⟩) ∧
      load true none value.pruned = .ok config.pruned := by
  intro viewer texts value config
  have loaded : load false none value = .ok config := by rfl
  have known : KnownKeys value := by
    intro key present
    exact Or.inr (Or.inr (List.mem_singleton.mp present))
  have invalid : ¬ config.AllStatements := by
    rw [← invalidBlock?_eq_none_iff]
    decide
  have refused : load true none value =
      .error (.refused ⟨.invalidStatements "block-1" ["read", "@docs"], none⟩) := by rfl
  exact ⟨loaded, known, invalid, refused,
    ((load_strict_iff_lenient none value).2.2 config loaded known invalid).2.1⟩

end Config

end Permits
