import Permits.Proofs.Tree.Order

set_option autoImplicit false

namespace Permits

/-- The permissions of one path: each name once, and every name a permission name or the star. -/
structure Permissions.WellFormed (permissions : Permissions) : Prop where
  unique : (Table.names permissions).Nodup
  names : ∀ name ∈ Table.names permissions, isPermission name.toList = true

/-- The place of the root among the paths of an app. -/
inductive Resources.RootPlaced : Resources → Prop
  | first {permissions : Permissions} {rest : Resources} (held : permissions ≠ []) :
      RootPlaced (("", permissions) :: rest)
  | second {path : String} {permissions root : Permissions} {rest : Resources}
      (other : path ≠ "") : RootPlaced ((path, permissions) :: ("", root) :: rest)

/-- The paths of one app. -/
structure Resources.WellFormed (resources : Resources) : Prop where
  unique : (Table.names resources).Nodup
  root : RootPlaced resources
  paths : ∀ entry ∈ resources, entry.1 ≠ "" →
    entry.2 ≠ [] ∧ ∃ segments, IsPath segments ∧ entry.1 = joinPath segments
  permissions : ∀ entry ∈ resources, Permissions.WellFormed entry.2

/-- A tree as builders make them. -/
structure Tree.WellFormed (tree : Tree) : Prop where
  unique : (Table.names tree).Nodup
  apps : ∀ entry ∈ tree, isName entry.1.toList = true
  resources : ∀ entry ∈ tree, Resources.WellFormed entry.2

namespace Table

variable {α : Type}

theorem nodup_names_put {table : Table α} (unique : (names table).Nodup) (name : String)
    (value : α) : (names (put name value table)).Nodup := by
  rw [names_put_eq_enter]
  exact nodup_enter unique name

end Table

theorem Permissions.wellFormed_nil : Permissions.WellFormed [] :=
  ⟨List.nodup_nil, fun _ present => nomatch present⟩

theorem Permissions.WellFormed.put {permissions : Permissions} (good : permissions.WellFormed)
    {name : String} (permission : isPermission name.toList = true) (effect : Effect) :
    Permissions.WellFormed (Table.put name effect permissions) := by
  refine ⟨Table.nodup_names_put good.unique name effect, ?_⟩
  intro other present
  rw [Table.names_put_eq_enter, mem_enter] at present
  rcases present with held | new
  · exact good.names other held
  · exact new ▸ permission

namespace Resources

/-- A path that a statement brings up, together with what it holds from then on. -/
structure Brought (path : String) (permissions : Permissions) : Prop where
  segments : ∃ segments, IsPath segments ∧ path = joinPath segments
  held : permissions ≠ []
  good : permissions.WellFormed

theorem RootPlaced.put {resources : Resources} (placed : RootPlaced resources) {path : String}
    {permissions : Permissions} (held : permissions ≠ []) :
    RootPlaced (Table.put path permissions resources) := by
  cases placed with
  | @first old rest filled =>
      by_cases root : "" = path
      · subst root
        simpa only [Table.put, ↓reduceIte] using RootPlaced.first held
      · simpa only [Table.put, root, ↓reduceIte] using RootPlaced.first filled
  | @second head old root rest other =>
      by_cases first : head = path
      · subst first
        simpa only [Table.put, ↓reduceIte] using RootPlaced.second other
      · by_cases here : "" = path
        · subst here
          simpa only [Table.put, first, ↓reduceIte] using RootPlaced.second other
        · simpa only [Table.put, first, here, ↓reduceIte] using RootPlaced.second other

theorem WellFormed.put {resources : Resources} (good : resources.WellFormed) {path : String}
    {permissions : Permissions} (brought : Brought path permissions) :
    WellFormed (Table.put path permissions resources) where
  unique := Table.nodup_names_put good.unique path permissions
  root := good.root.put brought.held
  paths := Table.forall_mem_put good.paths fun _ => ⟨brought.held, brought.segments⟩
  permissions := Table.forall_mem_put good.permissions brought.good

theorem wellFormed_new {path : String} {permissions : Permissions}
    (brought : Brought path permissions) :
    WellFormed (Table.put path permissions (Tree.newResources path)) := by
  have written : path ≠ "" → permissions ≠ [] ∧
      ∃ segments, IsPath segments ∧ path = joinPath segments := fun _ =>
    ⟨brought.held, brought.segments⟩
  unfold Tree.newResources
  by_cases root : path = ""
  · subst root
    simp only [↓reduceIte, Table.put]
    refine ⟨by simp [Table.names], .first brought.held, ?_, ?_⟩
    · simp
    · simpa using brought.good
  · simp only [root, ↓reduceIte, Table.put]
    refine ⟨by simp [Table.names, root], .second root, ?_, ?_⟩
    · simpa [root] using written root
    · simpa using ⟨brought.good, Permissions.wellFormed_nil⟩

theorem WellFormed.isPath {resources : Resources} (good : resources.WellFormed)
    {entry : String × Permissions} (present : entry ∈ resources) :
    IsPath (pathSegments entry.1) ∧ joinPath (pathSegments entry.1) = entry.1 := by
  by_cases root : entry.1 = ""
  · rw [root]
    exact ⟨IsPath.nil, rfl⟩
  · obtain ⟨-, segments, path, same⟩ := good.paths entry present root
    rw [same, path.pathSegments_joinPath]
    exact ⟨path, rfl⟩

theorem wellFormed_permissionsOf {resources : Resources} (good : resources.WellFormed)
    (path : String) : Permissions.WellFormed ((resources.find? path).getD []) := by
  cases found : resources.find? path with
  | none => exact Permissions.wellFormed_nil
  | some permissions => exact good.permissions _ (Table.mem_of_find? found)

end Resources

namespace Tree

theorem wellFormed_nil : WellFormed [] :=
  ⟨List.nodup_nil, fun _ present => (nomatch present), fun _ present => nomatch present⟩

theorem WellFormed.find? {tree : Tree} (good : tree.WellFormed) {app : String}
    {resources : Resources} (found : Table.find? app tree = some resources) :
    resources.WellFormed := good.resources _ (Table.mem_of_find? found)

theorem wellFormed_permissionsAt {tree : Tree} (good : tree.WellFormed) (app path : String) :
    Permissions.WellFormed (tree.permissionsAt app path) := by
  rw [permissionsAt]
  cases found : Table.find? app tree with
  | none => exact Permissions.wellFormed_nil
  | some resources => exact Resources.wellFormed_permissionsOf (good.find? found) path

theorem stable_wellFormed : Stable WellFormed := by
  intro tree statement parts good
  have brought : Resources.Brought statement.resource
      (Table.put statement.permission statement.effect
        (tree.permissionsAt statement.app statement.resource)) := by
    refine ⟨⟨statement.segments, parts.path, rfl⟩, Table.put_ne_nil _ _ _, ?_⟩
    exact (wellFormed_permissionsAt good _ _).put parts.permission statement.effect
  have resources : Resources.WellFormed (Table.put statement.resource
      (Table.put statement.permission statement.effect
        (tree.permissionsAt statement.app statement.resource)) (tree.opened statement.key)) := by
    rw [opened]
    cases found : Table.find? statement.key.app tree with
    | none => exact Resources.wellFormed_new brought
    | some before => exact (good.find? found).put brought
  rw [set_eq_put]
  exact ⟨Table.nodup_names_put good.unique _ _, Table.forall_mem_put good.apps parts.app,
    Table.forall_mem_put good.resources resources⟩

theorem wellFormed_run (calls : List Call) : (Builder.empty.run calls).tree.WellFormed :=
  stable_wellFormed.run Builder.empty calls wellFormed_nil

theorem wellFormed_build (blocks : List Value) :
    (Builder.empty.build blocks).builder.tree.WellFormed := by
  rw [Builder.build_builder]
  exact stable_wellFormed.mergeAll Builder.empty _ wellFormed_nil

theorem WellFormed.ext {first second : Tree} (good : first.WellFormed)
    (order : ∀ layer : Layer, layer.names first = layer.names second)
    (same : ∀ key, first.effect? key = second.effect? key) : first = second := by
  have apps : Table.names first = Table.names second := order .apps
  apply Table.ext_of_find? good.unique apps
  intro app known
  obtain ⟨resources, found⟩ := Table.exists_find?_of_mem_names known
  obtain ⟨resources', found'⟩ := Table.exists_find?_of_mem_names (apps ▸ known)
  rw [found, found', Option.some.injEq]
  have paths := order (.paths app)
  simp only [Layer.names, found, found', Option.getD_some] at paths
  apply Table.ext_of_find? (good.find? found).unique paths
  intro path inResources
  obtain ⟨permissions, held⟩ := Table.exists_find?_of_mem_names inResources
  obtain ⟨permissions', held'⟩ := Table.exists_find?_of_mem_names (paths ▸ inResources)
  rw [held, held', Option.some.injEq]
  have names := order (.permissions app path)
  simp only [Layer.names, permissionsAt, found, found', held, held', Option.bind_some,
    Option.getD_some] at names
  have shape := (good.find? found).permissions _ (Table.mem_of_find? held)
  apply Table.ext_of_find? shape.unique names
  intro permission _
  have effects := same ⟨app, path, permission⟩
  simpa only [effect?, found, found', held, held', Option.bind_some] using effects

end Tree

end Permits
