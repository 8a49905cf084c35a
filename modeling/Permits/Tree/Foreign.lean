import Permits.Value.Basic
import Permits.Tree.Basic

set_option autoImplicit false

namespace Permits

/-- What stands where a table is expected. -/
inductive Slot (α : Type) where
  | absent
  | alien
  | table (entries : Table α)

abbrev ForeignTree : Type := Slot (Slot (Slot Value))

inductive ForeignFault where
  /-- Something other than a table was met. -/
  | noTable
  deriving DecidableEq

namespace Slot

variable {α : Type}

def entries : Slot α → Except ForeignFault (Table α)
  | table entries => .ok entries
  | _ => .error .noTable

/-- The entries of a table. Nothing has no entries, and something else has none that can be
asked for. -/
def entries? : Slot α → Except ForeignFault (Option (Table α))
  | absent => .ok none
  | alien => .error .noTable
  | table entries => .ok (some entries)

end Slot

/-- The effect that a value stands for: the text of a sign does, every other value does not. -/
def Value.effect? : Value → Option Effect
  | .scalar (.text text) => Effect.ofSign? text
  | _ => none

namespace ForeignTree

/-- The statements that a foreign tree holds. Values that are no effects are written as they are. -/
def statements (tree : ForeignTree) : Except ForeignFault (List String) := do
  let apps ← tree.entries
  let ofApps ← apps.mapM fun (app, resources) => do
    let resources ← resources.entries
    let ofResources ← resources.mapM fun (resource, permissions) => do
      let permissions ← permissions.entries
      return permissions.map fun (permission, value) =>
        composeStatement value.plain permission app resource
    return ofResources.flatten
  return ofApps.flatten

def cleanPermissions (permissions : Table Value) : Permissions :=
  permissions.filterMap fun (name, value) => value.effect?.map (name, ·)

def cleanResources (resources : Table (Slot Value)) : Resources :=
  resources.filterMap fun (path, slot) =>
    match slot with
    | .table permissions => some (path, cleanPermissions permissions)
    | _ => none

def clean : ForeignTree → Tree
  | .table apps => apps.filterMap fun (app, slot) =>
      match slot with
      | .table resources => some (app, cleanResources resources)
      | _ => none
  | _ => []

end ForeignTree

end Permits
