import Mathlib.Data.List.Basic
import Permits.Proofs.Tree.Shape

set_option autoImplicit false

namespace Permits

/-- Entering names that count as one name, given the names that are there, enters that name. -/
theorem foldl_enter_eq {block held : List String} {name : String} (present : name ∈ block)
    (only : ∀ other ∈ block, other = name ∨ other ∈ held) :
    block.foldl enter held = enter held name := by
  by_cases known : name ∈ held
  · rw [enter_of_mem known]
    apply foldl_enter_of_subset
    intro other member
    rcases only other member with same | inside
    · exact same ▸ known
    · exact inside
  · induction block with
    | nil => cases present
    | cons first rest ih =>
        rw [List.forall_mem_cons] at only
        by_cases here : first = name
        · subst here
          rw [List.foldl_cons]
          apply foldl_enter_of_subset
          intro other member
          rw [mem_enter]
          exact (only.2 other member).symm
        · have old : first ∈ held := only.1.resolve_left here
          rw [List.foldl_cons, enter_of_mem old]
          exact ih ((List.mem_cons.mp present).resolve_left (Ne.symm here)) only.2

namespace Table

variable {α : Type}

/-- Entering blocks that each count as the name of an entry enters the names of a table. -/
theorem foldl_enter_flatMap (table : Table α) (block : String × α → List String)
    (held : List String) (unique : (names table).Nodup) (fresh : ∀ name ∈ names table, name ∉ held)
    (acts : ∀ entry ∈ table, ∀ before : List String, (∀ name ∈ held, name ∈ before) →
      (block entry).foldl enter before = enter before entry.1) :
    (table.flatMap block).foldl enter held = held ++ names table := by
  induction table generalizing held with
  | nil => simp [names]
  | cons entry rest ih =>
      simp only [names, List.map_cons, List.nodup_cons] at unique
      rw [List.forall_mem_cons] at acts
      simp only [names, List.map_cons, List.forall_mem_cons] at fresh
      have first := acts.1 held fun _ present => present
      rw [enter_of_not_mem fresh.1] at first
      have later := ih (held ++ [entry.1]) unique.2
        (fun name present => by
          rw [List.mem_append, List.mem_singleton]
          intro either
          rcases either with old | same
          · exact fresh.2 name present old
          · exact unique.1 (same ▸ present))
        (fun other member before inside => acts.2 other member before fun name present =>
          inside name (List.mem_append_left _ present))
      rw [List.flatMap_cons, List.foldl_append, first, later, List.append_assoc]
      rfl

theorem flatMap_eq_of_find? {β : Type} (table : Table α) (name : String)
    (block : String × α → List β) (unique : (names table).Nodup)
    (others : ∀ entry ∈ table, entry.1 ≠ name → block entry = []) :
    table.flatMap block = ((find? name table).map fun value => block (name, value)).getD [] := by
  induction table with
  | nil => rfl
  | cons entry rest ih =>
      rcases entry with ⟨first, value⟩
      simp only [names, List.map_cons, List.nodup_cons] at unique
      rw [List.forall_mem_cons] at others
      rw [List.flatMap_cons, ih unique.2 others.2, find?]
      split
      · rename_i same
        subst same
        rw [(find?_eq_none_iff rest first).mpr unique.1]
        simp
      · rename_i other
        rw [others.1 other, List.nil_append]

end Table

theorem Resources.WellFormed.exists_held {resources : Resources} (good : resources.WellFormed) :
    ∃ entry ∈ resources, entry.2 ≠ [] := by
  have placed := good.root
  cases placed with
  | @first permissions rest held => exact ⟨("", permissions), List.mem_cons_self, held⟩
  | @second path permissions root rest other =>
      exact ⟨(path, permissions), List.mem_cons_self,
        (good.paths _ List.mem_cons_self other).1⟩

namespace Resources

/-- What a path that holds permissions brings up: itself and the root, again and again. -/
def brings (path : String × Permissions) : List String := path.2.flatMap fun _ => [path.1, ""]

theorem mem_brings {path : String × Permissions} {name : String} (present : name ∈ brings path) :
    name = path.1 ∨ name = "" := by
  obtain ⟨_, -, inside⟩ := List.mem_flatMap.mp present
  simpa using inside

theorem self_mem_brings {path : String × Permissions} (held : path.2 ≠ []) :
    path.1 ∈ brings path := by
  obtain ⟨permission, present⟩ := List.exists_mem_of_ne_nil _ held
  exact List.mem_flatMap.mpr ⟨permission, present, List.mem_cons_self⟩

theorem foldl_enter_rooted (rest : Resources) (held : List String) (root : "" ∈ held)
    (unique : (Table.names rest).Nodup) (fresh : ∀ name ∈ Table.names rest, name ∉ held)
    (filled : ∀ entry ∈ rest, entry.2 ≠ []) :
    (rest.flatMap brings).foldl enter held = held ++ Table.names rest := by
  apply Table.foldl_enter_flatMap rest brings held unique fresh
  intro path member before inside
  apply foldl_enter_eq (self_mem_brings (filled path member))
  intro other present
  rcases mem_brings present with same | empty
  · exact Or.inl same
  · exact Or.inr (empty ▸ inside "" root)

theorem foldl_enter_first {path : String} {permissions : Permissions} (other : path ≠ "")
    (held : permissions ≠ []) : (brings (path, permissions)).foldl enter [] = [path, ""] := by
  obtain ⟨permission, others, rfl⟩ := List.exists_cons_of_ne_nil held
  have opening : [path, ""].foldl enter [] = [path, ""] := by simp [enter, Ne.symm other]
  change ([path, ""] ++ brings (path, others)).foldl enter [] = _
  rw [List.foldl_append, opening]
  apply foldl_enter_of_subset
  intro name present
  rcases mem_brings present with same | empty
  · simp [same]
  · simp [empty]

theorem foldl_enter_paths {resources : Resources} (good : resources.WellFormed) :
    (resources.flatMap brings).foldl enter [] = Table.names resources := by
  have placed := good.root
  have unique := good.unique
  have paths := good.paths
  cases placed with
  | @first permissions rest held =>
      simp only [Table.names, List.map_cons, List.nodup_cons] at unique
      rw [List.forall_mem_cons] at paths
      have first : (brings ("", permissions)).foldl enter [] = [""] := by
        apply foldl_enter_eq (self_mem_brings held)
        intro other present
        exact Or.inl (Or.elim (mem_brings present) id id)
      have later := foldl_enter_rooted rest [""] (by simp) unique.2
        (fun name present same => unique.1 (List.mem_singleton.mp same ▸ present))
        (fun entry present => (paths.2 entry present fun root =>
          unique.1 (root ▸ List.mem_map_of_mem present)).1)
      rw [List.flatMap_cons, List.foldl_append, first, later]
      rfl
  | @second path permissions root rest other =>
      simp only [Table.names, List.map_cons, List.nodup_cons, List.mem_cons, not_or] at unique
      rw [List.forall_mem_cons, List.forall_mem_cons] at paths
      have first := foldl_enter_first other (paths.1 other).1
      -- The root itself may hold nothing: it is here on account of the path before it.
      have second : (brings ("", root)).foldl enter [path, ""] = [path, ""] := by
        apply foldl_enter_of_subset
        intro name present
        rcases mem_brings present with same | same <;> simp [same]
      have later := foldl_enter_rooted rest [path, ""] (by simp) unique.2.2
        (fun name present => by
          intro same
          rcases List.mem_cons.mp same with here | here
          · exact unique.1.2 (here ▸ present)
          · exact unique.2.1 (List.mem_singleton.mp here ▸ present))
        (fun entry present => (paths.2.2 entry present fun root =>
          unique.2.1 (root ▸ List.mem_map_of_mem present)).1)
      rw [List.flatMap_cons, List.foldl_append, first, List.flatMap_cons, List.foldl_append, second,
        later]
      rfl

end Resources

theorem Permissions.foldl_enter_names {permissions : Permissions} (good : permissions.WellFormed) :
    (permissions.flatMap fun entry => [entry.1]).foldl enter [] = Table.names permissions := by
  rw [Table.foldl_enter_flatMap permissions _ [] good.unique (by simp), List.nil_append]
  intro entry _ before _
  rfl

namespace Tree

/-- The places that a tree settles, with their effects, in the order of the tree. -/
def settled (tree : Tree) : List (Key × Effect) :=
  tree.flatMap fun app => app.2.flatMap fun path => path.2.map fun permission =>
    (⟨app.1, path.1, permission.1⟩, permission.2)

def statementOf (entry : Key × Effect) : Statement :=
  ⟨entry.2, entry.1.permission, entry.1.app, pathSegments entry.1.resource⟩

theorem mem_settled_iff {tree : Tree} (good : tree.WellFormed) (key : Key) (effect : Effect) :
    (key, effect) ∈ tree.settled ↔ tree.effect? key = some effect := by
  simp only [settled, List.mem_flatMap, List.mem_map, Prod.exists, Prod.mk.injEq]
  constructor
  · intro listed
    obtain ⟨app, resources, inTree, path, permissions, inApp, permission, held, inPath, rfl, rfl⟩ :=
      listed
    have shape := good.resources _ inTree
    simp only [effect?, Table.find?_of_mem good.unique inTree, Option.bind_some,
      Table.find?_of_mem shape.unique inApp,
      Table.find?_of_mem (shape.permissions _ inApp).unique inPath]
  · intro found
    rw [effect?, Option.bind_eq_some_iff] at found
    obtain ⟨resources, app, found⟩ := found
    rw [Option.bind_eq_some_iff] at found
    obtain ⟨permissions, path, permission⟩ := found
    exact ⟨key.app, resources, Table.mem_of_find? app, key.resource, permissions,
      Table.mem_of_find? path, key.permission, effect, Table.mem_of_find? permission, rfl, rfl⟩

theorem statements_eq_map (tree : Tree) :
    tree.statements = tree.settled.map fun entry =>
      composeStatement entry.2.sign entry.1.permission entry.1.app entry.1.resource := by
  simp only [statements, settled, List.map_flatMap, List.map_map, Function.comp_def]

theorem wellFormed_statementOf {tree : Tree} (good : tree.WellFormed) {entry : Key × Effect}
    (listed : entry ∈ tree.settled) :
    (statementOf entry).WellFormed ∧ (statementOf entry).key = entry.1 := by
  simp only [settled, List.mem_flatMap, List.mem_map] at listed
  obtain ⟨app, inTree, path, inApp, permission, inPath, rfl⟩ := listed
  have shape := good.resources app inTree
  obtain ⟨segments, written⟩ := shape.isPath inApp
  refine ⟨⟨?_, good.apps app inTree, segments⟩, ?_⟩
  · exact (shape.permissions path inApp).names _ (List.mem_map_of_mem inPath)
  · simp only [statementOf, Statement.key, Statement.resource, written]

theorem statement?_of_settled {tree : Tree} (good : tree.WellFormed) {entry : Key × Effect}
    (listed : entry ∈ tree.settled) :
    Value.statement? (.ofText (composeStatement entry.2.sign entry.1.permission entry.1.app
      entry.1.resource)) = some (statementOf entry) := by
  obtain ⟨parts, key⟩ := wellFormed_statementOf good listed
  have resource : (statementOf entry).resource = entry.1.resource := congrArg Key.resource key
  rw [← Statement.parse?_text parts, Statement.text, resource]
  rfl

/-- The texts that a tree lists are read back as the statements that settle its places. -/
theorem filterMap_statement? {tree : Tree} (good : tree.WellFormed) :
    (tree.statements.map Value.ofText).filterMap Value.statement? =
      tree.settled.map statementOf := by
  rw [statements_eq_map, List.map_map, List.filterMap_map]
  apply List.filterMap_eq_map_iff_forall_eq_some.mpr
  intro entry listed
  exact statement?_of_settled good listed

theorem foldl_enter_apps {tree : Tree} (good : tree.WellFormed) :
    (tree.flatMap fun app => app.2.flatMap fun path => path.2.flatMap fun _ =>
      [app.1]).foldl enter [] = Table.names tree := by
  rw [Table.foldl_enter_flatMap tree _ [] good.unique (by simp), List.nil_append]
  intro app inTree before _
  apply foldl_enter_eq
  · obtain ⟨path, inApp, held⟩ := (good.resources app inTree).exists_held
    obtain ⟨permission, inPath⟩ := List.exists_mem_of_ne_nil _ held
    exact List.mem_flatMap.mpr ⟨path, inApp, List.mem_flatMap.mpr ⟨permission, inPath,
      List.mem_cons_self⟩⟩
  · intro other member
    simp only [List.mem_flatMap, List.mem_singleton] at member
    obtain ⟨path, -, permission, -, same⟩ := member
    exact Or.inl same

theorem eraseDups_settled {tree : Tree} (good : tree.WellFormed) (layer : Layer) :
    (tree.settled.flatMap fun entry => layer.entered entry.1).eraseDups = layer.names tree := by
  rw [eraseDups_eq_foldl]
  simp only [settled, List.flatMap_assoc, List.flatMap_map]
  cases layer with
  | apps =>
      simp only [Layer.entered, Layer.names]
      exact foldl_enter_apps good
  | paths app =>
      rw [Table.flatMap_eq_of_find? tree app _ good.unique]
      · simp only [Layer.names]
        cases found : Table.find? app tree with
        | none => rfl
        | some resources =>
            simp only [Option.map_some, Option.getD_some, Layer.entered, ↓reduceIte]
            exact Resources.foldl_enter_paths (good.find? found)
      · intro entry _ other
        simp [Layer.entered, other]
  | permissions app path =>
      rw [Table.flatMap_eq_of_find? tree app _ good.unique]
      · simp only [Layer.names, permissionsAt]
        cases found : Table.find? app tree with
        | none => rfl
        | some resources =>
            simp only [Option.map_some, Option.getD_some, Option.bind_some]
            rw [Table.flatMap_eq_of_find? resources path _ (good.find? found).unique]
            · cases inner : Table.find? path resources with
              | none => rfl
              | some permissions =>
                  have shape := (good.find? found).permissions _ (Table.mem_of_find? inner)
                  simp only [Option.map_some, Option.getD_some, Layer.entered, and_self, ↓reduceIte]
                  exact Permissions.foldl_enter_names shape
            · intro entry _ other
              simp [Layer.entered, other]
      · intro entry _ other
        simp [Layer.entered, other]

end Tree

end Permits
