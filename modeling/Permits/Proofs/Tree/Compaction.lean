import Permits.Proofs.Tree.Merge
import Permits.Proofs.Tree.Statements

set_option autoImplicit false

namespace Permits

def textBlocks (blocks : List (List String)) : List Value :=
  blocks.map fun texts => .list (texts.map .ofText)

theorem readable_textBlocks (blocks : List (List String)) : Readable (textBlocks blocks) := by
  intro block present
  obtain ⟨texts, -, rfl⟩ := List.mem_map.mp present
  rfl

theorem reached_textBlocks (blocks : List (List String)) :
    reached (textBlocks blocks) = blocks.map (·.map .ofText) := by
  induction blocks with
  | nil => rfl
  | cons texts rest ih => exact congrArg (texts.map .ofText :: ·) ih

theorem flatten_reached_textBlocks (blocks : List (List String)) :
    (reached (textBlocks blocks)).flatten = blocks.flatten.map .ofText := by
  rw [reached_textBlocks, List.map_flatten]

namespace Tree

variable {tree : Tree}

theorem filterMap_of_cut (good : tree.WellFormed) {cut : List (List String)}
    (same : cut.flatten = tree.statements) :
    (reached (textBlocks cut)).flatten.filterMap Value.statement? =
      tree.settled.map statementOf := by
  rw [flatten_reached_textBlocks, same, filterMap_statement? good]

theorem lastVerdict?_of_cut (good : tree.WellFormed) {cut : List (List String)}
    (same : cut.flatten = tree.statements) (key : Key) :
    lastVerdict? key (reached (textBlocks cut)) = tree.effect? key := by
  have statements := filterMap_of_cut good same
  cases verdict : lastVerdict? key (reached (textBlocks cut)) with
  | some effect =>
      obtain ⟨statement, present, spoken⟩ := exists_of_lastVerdict? verdict
      rw [statements] at present
      obtain ⟨entry, listed, rfl⟩ := List.mem_map.mp present
      have key' := (wellFormed_statementOf good listed).2
      rw [key'] at spoken
      have found : (key, effect) ∈ tree.settled := by
        rw [← spoken.1, ← spoken.2]
        exact listed
      exact ((mem_settled_iff good key effect).mp found).symm
  | none =>
      symm
      apply Option.eq_none_iff_forall_ne_some.mpr
      intro effect held
      have listed := (mem_settled_iff good key effect).mpr held
      have present : statementOf (key, effect) ∈
          (reached (textBlocks cut)).flatten.filterMap Value.statement? := by
        rw [statements]
        exact List.mem_map_of_mem listed
      exact key_ne_of_lastVerdict? verdict _ present (wellFormed_statementOf good listed).2

theorem eraseDups_of_cut (good : tree.WellFormed) {cut : List (List String)}
    (same : cut.flatten = tree.statements) (layer : Layer) :
    ((places (reached (textBlocks cut))).flatMap layer.entered).eraseDups = layer.names tree := by
  have keys : (tree.settled.map statementOf).map Statement.key = tree.settled.map Prod.fst := by
    rw [List.map_map]
    apply List.map_congr_left
    intro entry listed
    exact (wellFormed_statementOf good listed).2
  rw [places_eq_map, filterMap_of_cut good same, keys, List.flatMap_map, eraseDups_settled good]

theorem build_of_cut (good : tree.WellFormed) {cut : List (List String)}
    (same : cut.flatten = tree.statements) :
    (Builder.empty.build (textBlocks cut)).builder.tree = tree := by
  apply (wellFormed_build (textBlocks cut)).ext
  · intro layer
    rw [Builder.names_build, eraseDups_of_cut good same]
  · intro key
    rw [Builder.effect?_build, lastVerdict?_of_cut good same]

/-- The trees that builders make, whatever is called on them, are the trees of the right shape. -/
theorem exists_run_iff_wellFormed (tree : Tree) :
    (∃ calls : List Call, (Builder.empty.run calls).tree = tree) ↔ tree.WellFormed := by
  constructor
  · intro made
    obtain ⟨calls, rfl⟩ := made
    exact wellFormed_run calls
  · intro good
    refine ⟨[.build (.list (textBlocks [tree.statements]))], ?_⟩
    change (Builder.empty.buildValue _).builder.tree = tree
    rw [Builder.buildValue_list]
    exact build_of_cut good (by simp)

end Tree

namespace Builder

/-- Blocks that say the same about a place can stand for each other between any other blocks, as far
as that place is concerned. -/
theorem effect?_build_congr {first second : List Value} (before after : List Value)
    (firstReadable : Readable first) (secondReadable : Readable second) {key : Key}
    (verdicts : lastVerdict? key (reached first) = lastVerdict? key (reached second)) :
    (empty.build (before ++ first ++ after)).builder.tree.effect? key =
      (empty.build (before ++ second ++ after)).builder.tree.effect? key := by
  rw [effect?_build, effect?_build]
  by_cases readable : Readable before
  · simp only [List.append_assoc, reached_append _ readable, reached_append _ firstReadable,
      reached_append _ secondReadable, lastVerdict?_append, verdicts]
  · simp only [List.append_assoc, reached_append_of_not _ readable]

/-- Blocks that settle and order the same can stand for each other between any other blocks. -/
theorem build_tree_congr {first second : List Value} (before after : List Value)
    (firstReadable : Readable first) (secondReadable : Readable second)
    (order : ∀ layer : Layer, ((places (reached first)).flatMap layer.entered).eraseDups =
      ((places (reached second)).flatMap layer.entered).eraseDups)
    (verdicts : ∀ key, lastVerdict? key (reached first) = lastVerdict? key (reached second)) :
    (empty.build (before ++ first ++ after)).builder.tree =
      (empty.build (before ++ second ++ after)).builder.tree := by
  apply (Tree.wellFormed_build _).ext
  · intro layer
    rw [names_build, names_build]
    by_cases readable : Readable before
    · simp only [List.append_assoc, reached_append _ readable, reached_append _ firstReadable,
        reached_append _ secondReadable, places_append, List.flatMap_append]
      simpa only [List.append_assoc] using eraseDups_append_congr _ _ (order layer)
    · simp only [List.append_assoc, reached_append_of_not _ readable]
  · intro key
    exact effect?_build_congr before after firstReadable secondReadable (verdicts key)

theorem build_fault_congr {first second : List Value} (before after : List Value)
    (firstReadable : Readable first) (secondReadable : Readable second) :
    (empty.build (before ++ first ++ after)).fault =
      (empty.build (before ++ second ++ after)).fault := by
  apply build_fault_congr_of_readable
  simp only [readable_append, firstReadable, secondReadable]

/-- The statements of a tree, cut into blocks in any way, can stand for the blocks that made it,
whatever is read before and behind them. On their own they make the tree again, in its order. -/
theorem buildValue_cut_statements (blocks : List Value)
    (whole : (empty.buildValue (.list blocks)).fault = none) :
    let tree := (empty.buildValue (.list blocks)).builder.tree
    (∀ (before after : List Value) (cut : List (List String)), cut.flatten = tree.statements →
      (empty.buildValue (.list (before ++ textBlocks cut ++ after))).builder.tree =
          (empty.buildValue (.list (before ++ blocks ++ after))).builder.tree ∧
        (empty.buildValue (.list (before ++ textBlocks cut ++ after))).fault =
          (empty.buildValue (.list (before ++ blocks ++ after))).fault) ∧
      (empty.buildValue (.list (textBlocks [tree.statements]))).fault = none ∧
      (empty.buildValue (.list (textBlocks [tree.statements]))).builder.tree = tree ∧
      (empty.buildValue (.list (textBlocks [tree.statements]))).builder.tree.statements =
        tree.statements := by
  intro tree
  simp only [buildValue_list] at whole ⊢
  have made : tree = (empty.build blocks).builder.tree := by
    simp only [tree, buildValue_list]
  have readable := (build_fault_eq_none_iff empty blocks).mp whole
  have good : tree.WellFormed := by
    rw [made]
    exact Tree.wellFormed_build blocks
  have again : (empty.build (textBlocks [tree.statements])).builder.tree = tree :=
    Tree.build_of_cut good (by simp)
  refine ⟨?_, ?_, again, ?_⟩
  · intro before after cut same
    have cutReadable := readable_textBlocks cut
    constructor
    · apply build_tree_congr before after cutReadable readable
      · intro layer
        rw [Tree.eraseDups_of_cut good same, made, names_build]
      · intro key
        rw [Tree.lastVerdict?_of_cut good same, made, effect?_build]
    · exact build_fault_congr before after cutReadable readable
  · exact (build_fault_eq_none_iff _ _).mpr (readable_textBlocks _)
  · rw [again]

/-- A block that denies and a block that grants over it leave two grants. Each in a block of its
own, behind a denial and before another app, they make what the two blocks make there. -/
theorem buildValue_cut_two_blocks :
    let before := textBlocks [["-access@projects:x"]]
    let blocks := textBlocks [["-access@projects", "access@projects:x"], ["access@projects"]]
    let cut := textBlocks [["+access@projects"], ["+access@projects:x"]]
    let after := textBlocks [["read@files"]]
    (empty.buildValue (.list blocks)).fault = none ∧
      (empty.buildValue (.list (before ++ cut ++ after))).builder.tree =
        (empty.buildValue (.list (before ++ blocks ++ after))).builder.tree := by
  intro before blocks cut after
  have whole : (empty.buildValue (.list blocks)).fault = none := by decide
  have same : [["+access@projects"], ["+access@projects:x"]].flatten =
      (empty.buildValue (.list blocks)).builder.tree.statements := by decide
  exact ⟨whole, ((buildValue_cut_statements blocks whole).1 before after _ same).1⟩

end Builder

end Permits
