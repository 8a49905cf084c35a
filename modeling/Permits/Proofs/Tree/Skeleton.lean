import Mathlib.Data.List.Nodup
import Permits.Proofs.Tree.Statements

set_option autoImplicit false

namespace Permits

/-- The apps of a tree, the paths of each app and the permission names of each path. -/
abbrev Skeleton : Type := Table (Table (List String))

namespace Skeleton

/-- Paths with the root in the second place, unless it is the first path. -/
def rootSecond : List String → List String
  | [] => []
  | first :: rest => if first = "" then first :: rest else first :: "" :: rest.filter (· ≠ "")

/-- The skeleton that places bring up when they are read one by one. -/
def ofPlaces (places : List Key) : Skeleton :=
  (places.map Key.app).eraseDups.map fun app =>
    let inApp := places.filter (·.app = app)
    (app, (rootSecond (inApp.map Key.resource).eraseDups).map fun path =>
      (path, ((inApp.filter (·.resource = path)).map Key.permission).eraseDups))

/-- The places of a skeleton, level by level in order. -/
def keys (skeleton : Skeleton) : List Key :=
  skeleton.flatMap fun app => app.2.flatMap fun path => path.2.map fun permission =>
    ⟨app.1, path.1, permission⟩

end Skeleton

def Tree.skeleton (tree : Tree) : Skeleton :=
  tree.map fun app => (app.1, app.2.map fun path => (path.1, Table.names path.2))

theorem flatMap_ite_nil {α β : Type} (keeps : α → Prop) [DecidablePred keeps] (block : α → List β)
    (items : List α) :
    (items.flatMap fun item => if keeps item then block item else []) =
      (items.filter (keeps ·)).flatMap block := by
  induction items with
  | nil => rfl
  | cons item rest ih =>
      rw [List.flatMap_cons, ih]
      by_cases kept : keeps item
      · rw [if_pos kept, List.filter_cons_of_pos (by simpa using kept), List.flatMap_cons]
      · rw [if_neg kept, List.nil_append, List.filter_cons_of_neg (by simpa using kept)]

namespace Skeleton

theorem mem_rootSecond (paths : List String) (path : String) :
    path ∈ rootSecond paths ↔ path ∈ paths ∨ (path = "" ∧ paths ≠ []) := by
  cases paths with
  | nil => simp [rootSecond]
  | cons first rest =>
      unfold rootSecond
      by_cases root : first = ""
      · subst root
        simp only [↓reduceIte, List.mem_cons]
        tauto
      · by_cases here : path = "" <;> simp [root, here]

/-- A path that comes up goes behind the others, and the root is there from the first path on. -/
theorem rootSecond_enter (paths : List String) (path : String) :
    rootSecond (enter paths path) = enter (enter (rootSecond paths) path) "" := by
  by_cases known : path ∈ paths
  · have nonempty : paths ≠ [] := List.ne_nil_of_mem known
    have held : path ∈ rootSecond paths := (mem_rootSecond _ _).mpr (Or.inl known)
    have root : "" ∈ rootSecond paths := (mem_rootSecond _ _).mpr (Or.inr ⟨rfl, nonempty⟩)
    rw [enter_of_mem known, enter_of_mem held, enter_of_mem root]
  · rw [enter_of_not_mem known]
    cases paths with
    | nil =>
        by_cases root : path = ""
        · simp [rootSecond, enter, root]
        · simp [rootSecond, enter, root, Ne.symm root]
    | cons first rest =>
        rw [List.mem_cons, not_or] at known
        by_cases top : first = ""
        · subst top
          simp [rootSecond, enter, known.1, known.2]
        · by_cases root : path = ""
          · subst root
            simp [rootSecond, enter, top, Ne.symm top]
          · simp [rootSecond, enter, top, root, known.1, known.2, Ne.symm top]

/-- Where every path brings the root with it, the root ends up in the second place at the latest. -/
theorem eraseDups_rooted (paths : List String) :
    (paths.flatMap fun path => [path, ""]).eraseDups = rootSecond paths.eraseDups := by
  induction paths using List.reverseRecOn with
  | nil => rfl
  | append_singleton before path ih =>
      rw [List.flatMap_append, List.flatMap_singleton, eraseDups_append_eq_foldl, ih,
        eraseDups_concat, rootSecond_enter]
      rfl

end Skeleton

namespace Layer

theorem flatMap_entered_apps (places : List Key) :
    places.flatMap apps.entered = places.map Key.app := List.map_eq_flatMap.symm

theorem eraseDups_entered_paths (places : List Key) (app : String) :
    (places.flatMap (paths app).entered).eraseDups =
      Skeleton.rootSecond ((places.filter (·.app = app)).map Key.resource).eraseDups := by
  rw [← Skeleton.eraseDups_rooted, List.flatMap_map]
  exact congrArg List.eraseDups (flatMap_ite_nil (fun key : Key => key.app = app) _ places)

theorem flatMap_entered_permissions (places : List Key) (app path : String) :
    places.flatMap (permissions app path).entered =
      ((places.filter (·.app = app)).filter (·.resource = path)).map Key.permission := by
  have kept : places.flatMap (permissions app path).entered = _ :=
    flatMap_ite_nil (fun key : Key => key.app = app ∧ key.resource = path) _ places
  rw [kept, List.filter_filter, List.map_eq_flatMap]
  simp only [Bool.decide_and, Bool.and_comm]

end Layer

namespace Table

variable {α β : Type}

/-- What entries contribute does not repeat if it does not repeat in any entry and tells the name
of its entry. -/
theorem nodup_flatMap {table : Table α} (unique : (names table).Nodup)
    (block : String × α → List β) (label : β → String)
    (inner : ∀ entry ∈ table, (block entry).Nodup)
    (labelled : ∀ entry ∈ table, ∀ item ∈ block entry, label item = entry.1) :
    (table.flatMap block).Nodup := by
  induction table with
  | nil => exact List.nodup_nil
  | cons entry rest ih =>
      simp only [names, List.map_cons, List.nodup_cons] at unique
      rw [List.forall_mem_cons] at inner labelled
      rw [List.flatMap_cons, List.nodup_append]
      refine ⟨inner.1, ih unique.2 inner.2 labelled.2, ?_⟩
      intro item here other later same
      obtain ⟨entry', present, inside⟩ := List.mem_flatMap.mp later
      have name : entry.1 = entry'.1 := by
        rw [← labelled.1 item here, same, labelled.2 entry' present other inside]
      exact unique.1 (name ▸ List.mem_map_of_mem present)

end Table

namespace Tree

variable {tree : Tree}

theorem keys_skeleton (tree : Tree) : tree.skeleton.keys = tree.settled.map Prod.fst := by
  simp only [skeleton, Skeleton.keys, settled, Table.names, List.flatMap_map, List.map_flatMap,
    List.map_map, Function.comp_def]

theorem nodup_keys_skeleton (good : tree.WellFormed) : tree.skeleton.keys.Nodup := by
  rw [keys_skeleton, settled, List.map_flatMap]
  apply Table.nodup_flatMap good.unique _ Key.app
  · intro app inTree
    have shape := good.resources app inTree
    rw [List.map_flatMap]
    apply Table.nodup_flatMap shape.unique _ Key.resource
    · intro path inApp
      rw [List.map_map]
      have names := (shape.permissions path inApp).unique
      rw [Table.names] at names
      apply List.Nodup.of_map Key.permission
      simpa only [List.map_map, Function.comp_def] using names
    · intro path _ key member
      simp only [List.map_map, List.mem_map, Function.comp_apply] at member
      obtain ⟨permission, -, rfl⟩ := member
      rfl
  · intro app _ key member
    simp only [List.map_flatMap, List.map_map, List.mem_flatMap, List.mem_map,
      Function.comp_apply] at member
    obtain ⟨path, -, permission, -, rfl⟩ := member
    rfl

theorem mem_keys_skeleton_iff (good : tree.WellFormed) (key : Key) :
    key ∈ tree.skeleton.keys ↔ tree.effect? key ≠ none := by
  rw [keys_skeleton, List.mem_map, Option.ne_none_iff_exists']
  simp only [Prod.exists, exists_and_right, exists_eq_right, mem_settled_iff good]

theorem places_statements (good : tree.WellFormed) :
    (tree.statements.map fun text => (Value.ofText text).statement?.map Statement.key) =
      tree.skeleton.keys.map some := by
  rw [statements_eq_map, keys_skeleton, List.map_map, List.map_map]
  apply List.map_congr_left
  intro entry listed
  rw [Function.comp_apply, statement?_of_settled good listed, Option.map_some,
    (wellFormed_statementOf good listed).2]
  rfl

theorem nodup_statements (good : tree.WellFormed) : tree.statements.Nodup := by
  have places := (nodup_keys_skeleton good).map (fun _ _ => Option.some.inj)
  rw [← places_statements good] at places
  exact List.Nodup.of_map _ places

theorem skeleton_eq_ofPlaces (good : tree.WellFormed) (places : List Key)
    (order : ∀ layer : Layer,
      layer.names tree = (places.flatMap layer.entered).eraseDups) :
    tree.skeleton = Skeleton.ofPlaces places := by
  have apps := order .apps
  rw [Layer.flatMap_entered_apps] at apps
  rw [Skeleton.ofPlaces, ← apps, Layer.names, Table.names, List.map_map, skeleton]
  apply List.map_congr_left
  intro app inTree
  have found := Table.find?_of_mem good.unique inTree
  have paths := order (.paths app.1)
  rw [Layer.eraseDups_entered_paths, Layer.names, found, Option.getD_some] at paths
  simp only [Function.comp_apply, Prod.mk.injEq, true_and]
  rw [← paths, Table.names, List.map_map]
  apply List.map_congr_left
  intro path inApp
  have held := Table.find?_of_mem (good.resources app inTree).unique inApp
  have permissions := order (.permissions app.1 path.1)
  rw [Layer.flatMap_entered_permissions, Layer.names, permissionsAt, found, Option.bind_some, held,
    Option.getD_some] at permissions
  rw [Function.comp_apply, permissions]

end Tree

namespace Builder

/-- A run from a fresh builder lists every layer in the order of first occurrences. -/
theorem names_run (calls : List Call) (layer : Layer) :
    layer.names (empty.run calls).tree =
      ((places ((Call.history 0 calls).map Merge.entries)).flatMap layer.entered).eraseDups := by
  have fresh : layer.names empty.tree = [] := by cases layer <;> rfl
  have merged : empty.run calls = empty.mergeAll (Call.history 0 calls) := run_eq_mergeAll _ _
  rw [merged, names_mergeAll empty _ Tree.rooted_nil layer, fresh, eraseDups_eq_foldl]

/-- The order law. The skeleton that a run leaves is told from the places that it read, one behind
the other; signs, flags and the borders of blocks and calls have no say in it. The tree settles just
the places of its skeleton, each once, and lists one statement for each of them in that order; no
two of these statements are equal. -/
theorem skeleton_run (calls : List Call) :
    let tree := (empty.run calls).tree
    tree.skeleton =
        Skeleton.ofPlaces (places ((Call.history 0 calls).map Merge.entries)) ∧
      (∀ key, key ∈ tree.skeleton.keys ↔ tree.effect? key ≠ none) ∧
      tree.skeleton.keys.Nodup ∧
      (tree.statements.map fun text => (Value.ofText text).statement?.map Statement.key) =
        tree.skeleton.keys.map some ∧
      tree.statements.Nodup := by
  intro tree
  have good : tree.WellFormed := Tree.wellFormed_run calls
  exact ⟨Tree.skeleton_eq_ofPlaces good _ (names_run calls), Tree.mem_keys_skeleton_iff good,
    Tree.nodup_keys_skeleton good, Tree.places_statements good, Tree.nodup_statements good⟩

-- The root of the app stands behind its first path, wherever the app itself comes up.
example : Skeleton.ofPlaces [⟨"docs", "a", "read"⟩, ⟨"docs", "b", "read"⟩, ⟨"docs", "", "write"⟩] =
    [("docs", [("a", ["read"]), ("", ["write"]), ("b", ["read"])])] := by decide

end Builder

end Permits
