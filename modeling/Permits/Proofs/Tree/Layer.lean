import Permits.Proofs.Tree.Table
import Permits.Tree.Basic

set_option autoImplicit false

namespace Permits

namespace Tree

/-- What a tree says at a resource path, empty where it does not have the path. -/
def permissionsAt (tree : Tree) (app path : String) : Permissions :=
  ((tree.find? app).bind fun resources => resources.find? path).getD []

theorem effect?_eq_find? (tree : Tree) (key : Key) :
    tree.effect? key = (tree.permissionsAt key.app key.resource).find? key.permission := by
  simp only [effect?, permissionsAt]
  cases tree.find? key.app with
  | none => rfl
  | some resources =>
      simp only [Option.bind_some]
      cases resources.find? key.resource <;> rfl

theorem find?_newResources_getD (resource path : String) :
    ((newResources resource).find? path).getD [] = [] := by
  unfold newResources
  split
  · by_cases root : "" = path <;> simp [Table.find?, root]
  · by_cases same : resource = path <;> by_cases root : "" = path <;>
      simp [Table.find?, same, root]

/-- The paths of an app, new ones where the tree does not know the app. -/
def opened (tree : Tree) (key : Key) : Resources :=
  (tree.find? key.app).getD (newResources key.resource)

theorem find?_opened_getD (tree : Tree) (key : Key) (path : String) :
    ((tree.opened key).find? path).getD [] = tree.permissionsAt key.app path := by
  rw [permissionsAt, opened]
  cases tree.find? key.app with
  | none => exact find?_newResources_getD key.resource path
  | some resources => rfl

theorem set_eq_put (tree : Tree) (key : Key) (effect : Effect) :
    tree.set key effect = tree.put key.app ((tree.opened key).put key.resource
      ((tree.permissionsAt key.app key.resource).put key.permission effect)) := by
  rw [← find?_opened_getD]
  rfl

theorem permissionsAt_set (tree : Tree) (key : Key) (effect : Effect) (app path : String) :
    (tree.set key effect).permissionsAt app path =
      if key.app = app ∧ key.resource = path then
        (tree.permissionsAt app path).put key.permission effect
      else tree.permissionsAt app path := by
  rw [set_eq_put, permissionsAt, Table.find?_put]
  by_cases sameApp : key.app = app
  · subst sameApp
    simp only [↓reduceIte, Option.bind_some, Table.find?_put, true_and]
    by_cases samePath : key.resource = path
    · simp only [samePath, ↓reduceIte, Option.getD_some]
    · simp only [samePath, ↓reduceIte, find?_opened_getD]
  · simp only [sameApp, ↓reduceIte, false_and]
    rfl

theorem effect?_set (tree : Tree) (key other : Key) (effect : Effect) :
    (tree.set key effect).effect? other =
      if key = other then some effect else tree.effect? other := by
  rw [effect?_eq_find?, effect?_eq_find?, permissionsAt_set]
  rcases key with ⟨app, resource, permission⟩
  rcases other with ⟨app', path, permission'⟩
  by_cases here : app = app' ∧ resource = path
  · obtain ⟨rfl, rfl⟩ := here
    simp only [and_self, ↓reduceIte, Table.find?_put, Key.mk.injEq, true_and]
  · have elsewhere : ¬ (app = app' ∧ resource = path ∧ permission = permission') := fun same =>
      here ⟨same.1, same.2.1⟩
    simp only [here, ↓reduceIte, Key.mk.injEq, elsewhere]

end Tree

/-- A list of names that a tree keeps in order: its apps, the paths of one app, or the permissions
of one path. -/
inductive Layer where
  | apps
  | paths (app : String)
  | permissions (app path : String)

namespace Layer

/-- The names of a layer, none where the tree does not have it. -/
def names (tree : Tree) : Layer → List String
  | apps => Table.names tree
  | paths app => Table.names ((tree.find? app).getD [])
  | permissions app path => Table.names (tree.permissionsAt app path)

/-- The names that a place enters into a layer. An app gets its root behind its first path. -/
def entered (key : Key) : Layer → List String
  | apps => [key.app]
  | paths app => if key.app = app then [key.resource, ""] else []
  | permissions app path => if key.app = app ∧ key.resource = path then [key.permission] else []

end Layer

namespace Tree

/-- Every app of a tree has its root among its paths. -/
def Rooted (tree : Tree) : Prop :=
  ∀ app resources, tree.find? app = some resources → "" ∈ Table.names resources

theorem rooted_nil : Rooted [] := by
  intro app resources found
  cases found

theorem root_mem_newResources (resource : String) : "" ∈ Table.names (newResources resource) := by
  unfold newResources
  split <;> simp [Table.names]

theorem Rooted.set {tree : Tree} (rooted : tree.Rooted) (key : Key) (effect : Effect) :
    (tree.set key effect).Rooted := by
  intro app resources found
  rw [set_eq_put, Table.find?_put] at found
  split at found
  · rw [Option.some.injEq] at found
    rw [← found, Table.names_put_eq_enter, mem_enter, opened]
    apply Or.inl
    cases before : tree.find? key.app with
    | none => exact root_mem_newResources key.resource
    | some old => exact rooted key.app old before
  · exact rooted app resources found

theorem names_newResources (resource : String) :
    enter (Table.names (newResources resource)) resource = [resource, ""].foldl enter [] := by
  unfold newResources
  by_cases root : resource = "" <;> simp [Table.names, enter, root]

theorem names_set {tree : Tree} (rooted : tree.Rooted) (key : Key) (effect : Effect)
    (layer : Layer) :
    layer.names (tree.set key effect) = (layer.entered key).foldl enter (layer.names tree) := by
  cases layer with
  | apps => exact Table.names_put_eq_enter tree key.app _
  | paths app =>
      simp only [Layer.names, Layer.entered, set_eq_put, Table.find?_put]
      by_cases same : key.app = app
      · subst same
        simp only [↓reduceIte, Option.getD_some, Table.names_put_eq_enter, opened]
        cases before : tree.find? key.app with
        | none => exact names_newResources key.resource
        | some resources =>
            have root := rooted key.app resources before
            simp only [Option.getD_some, List.foldl_cons, List.foldl_nil]
            exact (enter_of_mem ((mem_enter _ _ _).mpr (Or.inl root))).symm
      · simp only [same, ↓reduceIte, List.foldl_nil]
  | permissions app path =>
      simp only [Layer.names, Layer.entered, permissionsAt_set]
      split
      · exact Table.names_put_eq_enter _ _ _
      · rfl

theorem entered_subset {tree : Tree} (rooted : tree.Rooted) {key : Key} {effect : Effect}
    (settled : tree.effect? key = some effect) (layer : Layer) :
    ∀ name ∈ layer.entered key, name ∈ layer.names tree := by
  have inner := settled
  rw [effect?_eq_find?] at inner
  rw [effect?, Option.bind_eq_some_iff] at settled
  obtain ⟨resources, app, settled⟩ := settled
  rw [Option.bind_eq_some_iff] at settled
  obtain ⟨permissions, path, -⟩ := settled
  intro name member
  cases layer with
  | apps =>
      rw [Layer.entered, List.mem_singleton] at member
      exact member ▸ Table.mem_names_of_find? app
  | paths other =>
      simp only [Layer.entered] at member
      split at member
      · rename_i same
        subst same
        simp only [Layer.names, app, Option.getD_some]
        rcases List.mem_cons.mp member with rfl | member
        · exact Table.mem_names_of_find? path
        · rw [List.mem_singleton] at member
          exact member ▸ rooted key.app resources app
      · cases member
  | permissions other path =>
      simp only [Layer.entered] at member
      split at member
      · rename_i same
        rw [← same.1, ← same.2, List.mem_singleton.mp member]
        exact Table.mem_names_of_find? inner
      · cases member

end Tree

end Permits
