import Permits.Proofs.Config.Reporting
import Permits.Proofs.Config.Strict

set_option autoImplicit false

namespace Permits

namespace Schema

/-- The parts that a field lists, one by one. A field that is left out lists none. -/
inductive Lists {α : Type} (part : Value → α → Prop) : Option Value → List α → Prop
  | absent : Lists part none []
  | given {items : List Value} {parts : List α} (each : List.Forall₂ part items parts) :
      Lists part (some (.list items)) parts

/-- The texts that a block lists as its statements. -/
def ListsStatements (block : Value) (statements : List String) : Prop :=
  ∃ fields, block = .map fields ∧
    Lists (fun item text => item = .ofText text) (field? "statements" fields) statements

theorem OptionalList.lists {α : Type} {ok : Value → Prop} {part : Value → α → Prop}
    {read : Value → Option α} {field : Option Value} (list : OptionalList ok field)
    (reads : ∀ item, ok item → ∃ value, read item = some value ∧ part item value) :
    Lists part field ((itemsOf field).filterMap read) := by
  rcases list with rfl | ⟨items, rfl, good⟩
  · exact .absent
  · refine .given ?_
    rw [itemsOf]
    induction items with
    | nil => exact .nil
    | cons item rest ih =>
        rw [List.forall_mem_cons] at good
        obtain ⟨value, found, stands⟩ := reads item good.1
        rw [List.filterMap_cons_some found]
        exact .cons stands (ih good.2)

theorem IsBlock.listsStatements {block : Value} (good : IsBlock block) :
    ListsStatements block (readBlock block).statements := by
  cases good with
  | @intro fields name statements keys =>
      refine ⟨fields, rfl, statements.lists ?_⟩
      rintro item ⟨text, rfl⟩
      exact ⟨text, rfl, rfl⟩

theorem IsConfig.listsBlocks {entries : Entries} (config : IsConfig entries) :
    Lists ListsStatements (field? "blocks" entries) (read entries).statementBlocks := by
  have listed : Lists ListsStatements (field? "blocks" entries)
      ((itemsOf (field? "blocks" entries)).filterMap fun block =>
        some (readBlock block).statements) :=
    config.blocks.lists fun block good => ⟨_, rfl, good.listsStatements⟩
  rw [List.filterMap_eq_map'] at listed
  rw [Config.statementBlocks, read, List.map_map]
  exact listed

end Schema

theorem Refusal.message_issues (found : List Issue) :
    (issues found).message = toString found.length ++
      (if found.length = 1 then " validation error" else " validation errors") ++
        " for PermissionConfig" := by
  by_cases single : found.length = 1
  · rw [if_pos single, single]
    obtain ⟨issue, rfl⟩ := List.length_eq_one_iff.mp single
    have numeral : toString (1 : Nat) = "1" := by decide
    rw [numeral]
    rfl
  · have several : (issues found).message =
        toString found.length ++ " validation errors for PermissionConfig" := by
      unfold message
      split <;> simp_all
    rw [several, if_neg single, String.append_assoc]
    rfl

namespace Config

open Schema

theorem load_lenient_of_not {entries : Entries} (source : Option String)
    (bad : ¬ IsConfig entries) :
    load false source (.map entries) =
      .error (.refused ⟨.issues (Schema.issues entries), source⟩) := by
  rw [load_lenient_map, check]
  cases found : Schema.issues entries with
  | nil => exact absurd ((issues_eq_nil_iff entries).mp found) bad
  | cons issue rest => rfl

/-- A lenient load of a mapping. It is accepted exactly if it has the shape of a configuration. The
blocks of statements are then the listed ones, and every block has a name. Otherwise the refusal has
one issue for each offending site, in the order of the sites, and counts them. -/
theorem load_lenient_reports (source : Option String) (entries : Entries) :
    ((∃ config, load false source (.map entries) = .ok config) ↔ IsConfig entries) ∧
      (∀ config, load false source (.map entries) = .ok config →
        Lists ListsStatements (field? "blocks" entries) config.statementBlocks ∧
          config.blockNames.length = config.statementBlocks.length) ∧
      (¬ IsConfig entries → ∃ listed : List (Site × Issue),
        listed.Pairwise (fun first second => first.1 < second.1) ∧
          (∀ site issue, (site, issue) ∈ listed ↔ Offends entries site issue) ∧
          let refusal := Refusal.issues (listed.map Prod.snd)
          load false source (.map entries) = .error (.refused ⟨refusal, source⟩) ∧
            refusal.message = toString listed.length ++
              (if listed.length = 1 then " validation error" else " validation errors") ++
                " for PermissionConfig") := by
  refine ⟨?_, ?_, ?_⟩
  · simp only [load_lenient_eq_ok_iff, Value.map.injEq, exists_eq_left', exists_eq_right]
  · intro config loaded
    rw [load_lenient_eq_ok_iff] at loaded
    obtain ⟨_, same, good, rfl⟩ := loaded
    obtain rfl := Value.map.inj same
    refine ⟨good.listsBlocks, ?_⟩
    simp [blockNames, statementBlocks]
  · intro bad
    obtain ⟨listed, ordered, exactly, issues⟩ := itemizes_issues entries
    refine ⟨listed, ordered, exactly, ?_, ?_⟩
    · rw [issues]
      exact load_lenient_of_not source bad
    · rw [Refusal.message_issues, List.length_map]

/-- A numeric version and a block without statements are accepted. In the other mapping a block
that is a text, a statement that is a number, a null among the keys of a block and a number among
the keys of the mapping are reported, one by one. -/
theorem load_lenient_reports_four :
    let accepted : Entries := [(.text "version", .scalar (.int 1)), (.text "blocks",
      .list [.map [(.text "statements", .list [.ofText "read@docs"])], .map []])]
    let entries : Entries := [(.int 7, .scalar .null), (.text "description", .scalar .null),
      (.text "blocks", .list [.ofText "read@docs", .map [(.text "statements",
        .list [.ofText "read@docs", .scalar (.int 2)]), (.null, .ofText "extra")]])]
    let found : List Issue := [⟨[.name "blocks", .index 0], .notMapping⟩,
      ⟨[.name "blocks", .index 1, .name "statements", .index 1], .notText⟩,
      ⟨[.name "blocks", .index 1, .name "None"], .keyNotText⟩, ⟨[.index 7], .keyNotText⟩]
    Lists ListsStatements (field? "blocks" accepted) [["read@docs"], []] ∧ ¬ IsConfig entries ∧
      load false none (.map entries) = .error (.refused ⟨.issues found, none⟩) ∧
      ∃ listed : List (Site × Issue), listed.map Prod.snd = found ∧
        listed.Pairwise (fun first second => first.1 < second.1) ∧
        ∀ site issue, (site, issue) ∈ listed ↔ Offends entries site issue := by
  intro accepted entries found
  have loaded : load false none (.map accepted) =
      .ok ⟨"1", none, [⟨none, ["read@docs"], []⟩, ⟨none, [], []⟩], []⟩ := rfl
  have bad : ¬ IsConfig entries := by
    rw [← issues_eq_nil_iff]
    decide
  have refused : load false none (.map entries) = .error (.refused ⟨.issues found, none⟩) := rfl
  obtain ⟨listed, ordered, exactly, reported, -⟩ := (load_lenient_reports none entries).2.2 bad
  have same : listed.map Prod.snd = found := by
    rw [refused] at reported
    simpa using reported.symm
  exact ⟨((load_lenient_reports none accepted).2.1 _ loaded).1, bad, refused, listed, same, ordered,
    exactly⟩

end Config

end Permits
