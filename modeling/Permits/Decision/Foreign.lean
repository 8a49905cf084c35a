import Permits.Decision.Basic
import Permits.Tree.Foreign

set_option autoImplicit false

namespace Permits

namespace ForeignTree

def settleAmong (resources : Table (Slot Value)) (app permission : String) :
    List String → Except ForeignFault Decision
  | [] => .ok .unsettled
  | path :: rest =>
      match resources.find? path with
      | none => settleAmong resources app permission rest
      | some .absent => settleAmong resources app permission rest
      | some .alien => .error .noTable
      | some (.table permissions) =>
          match settleBy (fun name => (permissions.find? name).bind Value.effect?) permission with
          | some (name, effect) => .ok (.settled effect name app path)
          | none => settleAmong resources app permission rest

def settle (tree : ForeignTree) (request : Statement) : Except ForeignFault Decision :=
  match tree with
  | .table apps =>
      match apps.find? request.app with
      | none => .ok (.unknownApp request.app)
      | some .absent => .ok (.unknownApp request.app)
      | some .alien => .error .noTable
      | some (.table resources) =>
          settleAmong resources request.app request.permission (candidatePaths request.segments)
  | _ => .error .noTable

/-- Decides any request. A request that is no statement never looks at the tree. -/
def authorize (tree : ForeignTree) (request : Value) : Except ForeignFault Decision :=
  match request.statement? with
  | none => .ok .invalid
  | some statement => tree.settle statement

end ForeignTree

end Permits
