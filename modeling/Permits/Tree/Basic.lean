import Permits.Statement.Basic
import Permits.Tree.Table

set_option autoImplicit false

namespace Permits

abbrev Permissions : Type := Table Effect

abbrev Resources : Type := Table Permissions

/-- The apps of a holder of permissions. -/
abbrev Tree : Type := Table Resources

/-- The place of one effect in a tree. -/
structure Key where
  app : String
  resource : String
  permission : String
  deriving DecidableEq

def Statement.key (statement : Statement) : Key :=
  ⟨statement.app, statement.resource, statement.permission⟩

namespace Tree

def effect? (tree : Tree) (key : Key) : Option Effect :=
  (tree.find? key.app).bind fun resources =>
    (resources.find? key.resource).bind fun permissions => permissions.find? key.permission

/-- The paths that a new app starts with: the one that came up, and behind it the app itself. -/
def newResources (resource : String) : Resources :=
  if resource = "" then [("", [])] else [(resource, []), ("", [])]

/-- Sets the effect at a place, and makes the levels above it where they are missing. -/
def set (tree : Tree) (key : Key) (effect : Effect) : Tree :=
  let resources := (tree.find? key.app).getD (newResources key.resource)
  let permissions := (resources.find? key.resource).getD []
  tree.put key.app (resources.put key.resource (permissions.put key.permission effect))

/-- The statements that a tree holds, one for each place, level by level in order. -/
def statements (tree : Tree) : List String :=
  tree.flatMap fun (app, resources) =>
    resources.flatMap fun (resource, permissions) =>
      permissions.map fun (permission, effect) =>
        composeStatement effect.sign permission app resource

/-- Whether two tables hold the same names with related values, in any order. -/
def sameTable {α : Type} (related : α → α → Bool) (first second : Table α) : Bool :=
  first.length == second.length && first.all fun (name, value) =>
    (second.find? name).any (related value)

def equivalent (first second : Tree) : Bool :=
  sameTable (sameTable (sameTable (· == ·))) first second

end Tree

end Permits
