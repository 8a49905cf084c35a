import Permits.Proofs.Decision.Deciding
import Permits.Proofs.Tree.Compaction

set_option autoImplicit false

namespace Permits

/-- Entries that hold the same statements, in any order and any number of times. -/
def SameStatements (first second : List Value) : Prop :=
  ∀ statement, statement ∈ first.filterMap Value.statement? ↔
    statement ∈ second.filterMap Value.statement?

/-- Blocks before and after a rearrangement: one block with other entries that hold the same
statements, or two neighbours without a common place the other way round. -/
inductive Rearranged : List Value → List Value → Prop
  | inside (before after : List Value) {block block' : Value} {entries entries' : List Value}
      (parts : block.parts? = some entries) (parts' : block'.parts? = some entries')
      (same : SameStatements entries entries') :
      Rearranged (before ++ [block] ++ after) (before ++ [block'] ++ after)
  | across (before after : List Value) {first second : Value} {entries entries' : List Value}
      (parts : first.parts? = some entries) (parts' : second.parts? = some entries')
      (apart : ∀ key ∈ places [entries], key ∉ places [entries']) :
      Rearranged (before ++ [first, second] ++ after) (before ++ [second, first] ++ after)

/-- What statements say about a place does not depend on their order or their number. -/
theorem verdict?_congr {first second : List Statement} (key : Key)
    (same : ∀ statement, statement ∈ first ↔ statement ∈ second) :
    verdict? key first = verdict? key second := by
  have silent : verdict? key first = none ↔ verdict? key second = none := by
    simp only [verdict?_eq_none_iff, same]
  have granted : verdict? key first = some .grant ↔ verdict? key second = some .grant := by
    simp only [verdict?_eq_grant_iff, same]
  rcases left : verdict? key first with _ | _ | _ <;>
    rcases right : verdict? key second with _ | _ | _ <;> simp_all

theorem lastVerdict?_eq_none_iff_not_mem (key : Key) (blocks : List (List Value)) :
    lastVerdict? key blocks = none ↔ key ∉ places blocks := by
  simp only [lastVerdict?_eq_none_iff, mentions_eq_false_iff, verdict?_eq_none_iff, places,
    List.mem_flatMap, List.mem_map, not_exists, not_and]

/-- Of two blocks without a common place at most one says anything about a given place, so it does
not matter which one comes last. -/
theorem lastVerdict?_swap {first second : List Value}
    (apart : ∀ key ∈ places [first], key ∉ places [second]) (key : Key) :
    lastVerdict? key [first, second] = lastVerdict? key [second, first] := by
  have pair : ∀ first second : List Value, lastVerdict? key [first, second] =
      (lastVerdict? key [second]).or (lastVerdict? key [first]) := fun first second =>
    lastVerdict?_append key [first] [second]
  rw [pair, pair]
  by_cases spoken : key ∈ places [first]
  · have silent := (lastVerdict?_eq_none_iff_not_mem key [second]).mpr (apart key spoken)
    rw [silent, Option.none_or, Option.or_none]
  · have silent := (lastVerdict?_eq_none_iff_not_mem key [first]).mpr spoken
    rw [silent, Option.none_or, Option.or_none]

/-- A rearrangement touches a part of the blocks that can be read before and after it and says the
same about every place. -/
theorem Rearranged.exists_parts {blocks arranged : List Value}
    (rearranged : Rearranged blocks arranged) :
    ∃ before first second after, blocks = before ++ first ++ after ∧
      arranged = before ++ second ++ after ∧ Readable first ∧ Readable second ∧
      ∀ key, lastVerdict? key (reached first) = lastVerdict? key (reached second) := by
  cases rearranged with
  | inside before after parts parts' same =>
      refine ⟨before, _, _, after, rfl, rfl, by simp [Readable, parts],
        by simp [Readable, parts'], ?_⟩
      intro key
      simp only [reached, parts, parts', lastVerdict?]
      exact congrArg _ (verdict?_congr key same)
  | across before after parts parts' apart =>
      refine ⟨before, _, _, after, rfl, rfl, by simp [Readable, parts, parts'],
        by simp [Readable, parts, parts'], ?_⟩
      intro key
      simp only [reached, parts, parts']
      exact lastVerdict?_swap apart key

namespace Builder

theorem mem_names_build_iff_effect? (blocks : List Value) (app : String) :
    app ∈ Table.names (empty.build blocks).builder.tree ↔
      ∃ key : Key, key.app = app ∧ (empty.build blocks).builder.tree.effect? key ≠ none := by
  simp only [mem_names_build_iff, effect?_build, Ne, lastVerdict?_eq_none_iff_not_mem, not_not,
    and_comm]

theorem authorize_build_congr {blocks blocks' : List Value}
    (same : ∀ key, (empty.build blocks).builder.tree.effect? key =
      (empty.build blocks').builder.tree.effect? key) (value : Value) :
    (empty.build blocks).builder.tree.authorize value =
      (empty.build blocks').builder.tree.authorize value := by
  unfold Tree.authorize
  cases value.statement? with
  | none => rfl
  | some request =>
      have decided : (empty.build blocks).builder.tree.deciding? request =
          (empty.build blocks').builder.tree.deciding? request :=
        Tree.deciding?_congr fun key _ => same key
      have known : request.app ∈ Table.names (empty.build blocks).builder.tree ↔
          request.app ∈ Table.names (empty.build blocks').builder.tree := by
        simp only [mem_names_build_iff_effect?, same]
      simp only [Tree.settle_eq_deciding, decided, known]

/-- Rearranged blocks make a tree with the same effect at every place, and every request gets the
same report from it. The build stops on the one exactly if it stops on the other. -/
theorem buildValue_rearranged {blocks arranged : List Value}
    (rearranged : Rearranged blocks arranged) :
    let before := empty.buildValue (.list blocks)
    let after := empty.buildValue (.list arranged)
    after.fault = before.fault ∧
      (∀ key, after.builder.tree.effect? key = before.builder.tree.effect? key) ∧
      ∀ request, (after.builder.tree.authorize request).report =
        (before.builder.tree.authorize request).report := by
  intro before after
  simp only [before, after, buildValue_list]
  obtain ⟨front, first, second, back, rfl, rfl, readable, readable', verdicts⟩ :=
    rearranged.exists_parts
  have same : ∀ key, (empty.build (front ++ second ++ back)).builder.tree.effect? key =
      (empty.build (front ++ first ++ back)).builder.tree.effect? key := fun key =>
    effect?_build_congr front back readable' readable (verdicts key).symm
  refine ⟨build_fault_congr front back readable' readable, same, ?_⟩
  intro request
  rw [authorize_build_congr same request]

/-- The second block denies a place that only it speaks of. As the first one it brings the app up
by another path, so that the tree has another order, but the denial is reported as before. -/
theorem buildValue_rearranged_swapped :
    let blocks := textBlocks [["access@projects"], ["access@projects:7", "-access@projects:42"]]
    let arranged := textBlocks [["access@projects:7", "-access@projects:42"], ["access@projects"]]
    let request := Value.ofText "access@projects:42:files"
    Rearranged blocks arranged ∧
      (empty.buildValue (.list arranged)).builder.tree ≠
        (empty.buildValue (.list blocks)).builder.tree ∧
      ((empty.buildValue (.list blocks)).builder.tree.authorize request).report.message =
        some "The permission -access@projects:42 blocks access" ∧
      ((empty.buildValue (.list arranged)).builder.tree.authorize request).report =
        ((empty.buildValue (.list blocks)).builder.tree.authorize request).report := by
  intro blocks arranged request
  have rearranged : Rearranged blocks arranged := .across [] [] rfl rfl (by decide)
  exact ⟨rearranged, by decide, by decide, (buildValue_rearranged rearranged).2.2 request⟩

end Builder

end Permits
