import Permits.Proofs.Decision.Deciding
import Permits.Proofs.Tree.Compaction

set_option autoImplicit false

namespace Permits

theorem head?_composeStatement (effect : Effect) (permission app resource : String) :
    (composeStatement effect.sign permission app resource).toList.head? = some '+' ↔
      effect = .grant := by
  cases effect <;> simp [composeStatement, Effect.sign]

namespace Tree

variable {tree : Tree} {request : Statement} {key : Key} {effect : Effect} {value : Value}

theorem mem_statements_of_effect? (good : tree.WellFormed) (held : tree.effect? key = some effect) :
    composeStatement effect.sign key.permission key.app key.resource ∈ tree.statements := by
  rw [statements_eq_map, List.mem_map]
  exact ⟨(key, effect), (mem_settled_iff good key effect).mpr held, rfl⟩

theorem exists_statement?_of_effect? (good : tree.WellFormed)
    (held : tree.effect? key = some effect) :
    ∃ statement : Statement,
      (Value.ofText (composeStatement effect.sign key.permission key.app
        key.resource)).statement? = some statement ∧
      statement.key = key ∧ statement.effect = effect := by
  have listed := (mem_settled_iff good key effect).mpr held
  have read := statement?_of_settled good listed
  have place := (wellFormed_statementOf good listed).2
  exact ⟨statementOf (key, effect), read, place, rfl⟩

theorem effect?_of_listed (good : tree.WellFormed) (held : tree.effect? key = some effect)
    (place : Key) :
    (Builder.empty.build (textBlocks [[composeStatement effect.sign key.permission key.app
        key.resource]])).builder.tree.effect? place =
      if key = place then some effect else none := by
  obtain ⟨statement, read, same, effect'⟩ := exists_statement?_of_effect? good held
  have single := Builder.effect?_build_single read place
  rwa [same, effect'] at single

theorem report_of_deciding (good : tree.WellFormed) (valid : value.statement? = some request)
    (decided : tree.deciding? request = some (key, effect)) :
    ((Builder.empty.build (textBlocks [[composeStatement effect.sign key.permission key.app
        key.resource]])).builder.tree.authorize value).report =
      (tree.authorize value).report := by
  obtain ⟨asked, held⟩ := deciding?_eq_some decided
  have alone := deciding?_of_single (effect?_of_listed good held) request
  rw [if_pos asked] at alone
  simp only [authorize, valid, settle_eq_deciding, alone, decided, Option.map_some,
    Option.getD_some]

theorem not_names_of_listed (good : tree.WellFormed) (valid : value.statement? = some request)
    (undecided : tree.deciding? request = none) {listed : String}
    (present : listed ∈ tree.statements) (text : String) :
    ¬ ((Builder.empty.build (textBlocks [[listed]])).builder.tree.authorize
      value).report.Names text := by
  rw [statements_eq_map] at present
  obtain ⟨⟨key, effect⟩, settled, rfl⟩ := List.mem_map.mp present
  have held := (mem_settled_iff good key effect).mp settled
  have unasked : ¬ key.Concerns request := by
    intro asked
    rw [deciding?_eq_none_iff.mp undecided key asked] at held
    cases held
  have alone := deciding?_of_single (effect?_of_listed good held) request
  rw [if_neg unasked] at alone
  rw [names_report_authorize_iff valid, alone]
  intro named
  obtain ⟨_, _, found, -⟩ := named
  cases found

end Tree

namespace Builder

/-- What a built tree says at a place is the word of the last block that speaks of it. -/
theorem exists_last_block {blocks : List Value} {key : Key} {effect : Effect}
    (held : (empty.build blocks).builder.tree.effect? key = some effect) :
    ∃ before entries after, reached blocks = before ++ entries :: after ∧
      mentions key entries = true ∧ (grants key entries = true ↔ effect = .grant) ∧
      ∀ later ∈ after, mentions key later = false := by
  rw [effect?_build, lastVerdict?_eq_some_iff] at held
  obtain ⟨before, entries, after, cut, spoken, silent⟩ := held
  refine ⟨before, entries, after, cut, ?_, ?_, silent⟩
  · rw [← Bool.not_eq_false, mentions_eq_false_iff, spoken]
    exact Option.some_ne_none _
  · rw [grants_eq_true_iff, spoken, Option.some.injEq]

theorem not_mem_names_build_iff (blocks : List Value) (app : String) :
    app ∉ Table.names (empty.build blocks).builder.tree ↔
      ∀ entries ∈ reached blocks, ∀ entry ∈ entries, ∀ statement,
        entry.statement? = some statement → statement.app ≠ app := by
  rw [mem_names_build_iff]
  simp only [places, List.mem_flatMap, List.mem_map, List.mem_filterMap]
  constructor
  · intro unknown entries block entry listed statement read same
    exact unknown ⟨_, ⟨entries, block, statement, ⟨entry, listed, read⟩, rfl⟩, same⟩
  · intro silent spoken
    obtain ⟨_, ⟨entries, block, statement, ⟨entry, listed, read⟩, rfl⟩, same⟩ := spoken
    exact silent entries block entry listed statement read same

/-- The report on a valid request, whatever the blocks. A statement that it names is listed by the
tree, grants exactly if the request is authorized, is what the last block on its place says there,
and gives the same report alone. If the report names none, no listed statement alone is named
either. An app is unknown exactly if no block speaks of it. -/
theorem report_explains {value : Value} {request : Statement}
    (valid : value.statement? = some request) (blocks : List Value) :
    let tree := (empty.buildValue (.list blocks)).builder.tree
    let report := (tree.authorize value).report
    let alone := fun text : String =>
      ((empty.buildValue (.list (textBlocks [[text]]))).builder.tree.authorize value).report
    (∀ text, report.Names text →
      text ∈ tree.statements ∧
        (text.toList.head? = some '+' ↔ report.authorized = true) ∧
        (∃ statement, Statement.parse? text = some statement ∧
          ∃ before entries after, reached blocks = before ++ entries :: after ∧
            mentions statement.key entries = true ∧
            (grants statement.key entries = true ↔ statement.effect = .grant) ∧
            ∀ later ∈ after, mentions statement.key later = false) ∧
        alone text = report) ∧
      ((∀ text, ¬ report.Names text) →
        ∀ listed ∈ tree.statements, ∀ text, ¬ (alone listed).Names text) ∧
      (report.message = some ("The user does not have access to the '" ++ request.app ++ "' app") ↔
        ∀ entries ∈ reached blocks, ∀ entry ∈ entries, ∀ statement,
          entry.statement? = some statement → statement.app ≠ request.app) := by
  intro tree report alone
  simp only [tree, report, alone, buildValue_list]
  have good := Tree.wellFormed_build blocks
  refine ⟨?_, ?_, ?_⟩
  · intro text named
    obtain ⟨key, effect, decided, rfl⟩ :=
      (Tree.names_report_authorize_iff valid _ text).mp named
    have held := (Tree.deciding?_eq_some decided).2
    refine ⟨Tree.mem_statements_of_effect? good held, ?_, ?_,
      Tree.report_of_deciding good valid decided⟩
    · rw [head?_composeStatement]
      simp only [Tree.authorize, valid, Tree.settle_eq_deciding, decided, Option.map_some,
        Option.getD_some, Decision.byPlace, Decision.report_settled, decide_eq_true_eq]
    · obtain ⟨statement, read, rfl, rfl⟩ := Tree.exists_statement?_of_effect? good held
      exact ⟨statement, read, exists_last_block held⟩
  · intro unnamed listed present
    have undecided : (empty.build blocks).builder.tree.deciding? request = none := by
      apply Option.eq_none_iff_forall_ne_some.mpr
      intro settled decided
      exact unnamed _ ((Tree.names_report_authorize_iff valid _ _).mpr
        ⟨settled.1, settled.2, decided, rfl⟩)
    exact Tree.not_names_of_listed good valid undecided present
  · rw [Decision.message_eq_unknownApp_iff, Tree.authorize, valid]
    show Tree.settle _ request = _ ↔ _
    rw [Tree.settle_eq_unknownApp_iff, not_mem_names_build_iff]

/-- A later denial of one project decides what lies below it, and alone it does so as well. -/
theorem report_explains_denied :
    let blocks := textBlocks [["access@projects", "access@projects:42"], ["-access@projects:42"]]
    let request := Value.ofText "access@projects:42:files"
    let report := ((empty.buildValue (.list blocks)).builder.tree.authorize request).report
    report.Names "-access@projects:42" ∧
      ((empty.buildValue (.list (textBlocks [["-access@projects:42"]]))).builder.tree.authorize
        request).report = report := by
  intro blocks request report
  have valid : request.statement? =
      some ⟨.grant, "access", "projects", ["42", "files"]⟩ := by decide
  have named : report.Names "-access@projects:42" := by
    right
    decide
  exact ⟨named, ((report_explains valid blocks).1 _ named).2.2.2⟩

end Builder

end Permits
