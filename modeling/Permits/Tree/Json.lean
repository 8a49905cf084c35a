import Permits.Json
import Permits.Tree.Basic

set_option autoImplicit false

namespace Permits.Tree

def permissionsJson (permissions : Permissions) : Json :=
  .object (permissions.map fun (name, effect) => (name, .text effect.sign))

def resourcesJson (resources : Resources) : Json :=
  .object (resources.map fun (path, permissions) => (path, permissionsJson permissions))

def json (tree : Tree) : Json :=
  .object (tree.map fun (app, resources) => (app, resourcesJson resources))

end Permits.Tree
