import Permits.Config.Load
import Permits.Disk
import Permits.Yaml.Document

set_option autoImplicit false

namespace Permits.Config

def loadText (origin : Origin) (strict : Bool) (source : Option String) (text : String) :
    Except LoadFault Config :=
  match Yaml.read text with
  | .error .malformed => .error (.refused ⟨.unreadable origin, source⟩)
  | .error .unsupported => .error .unread
  | .error (.scalar fault) => .error (.badScalar fault)
  | .ok value => load strict source (if value.isEmpty then .map [] else value)

def loadEntry (strict : Bool) (path : String) : Option DiskEntry → Except LoadFault Config
  | none => .error (.missing path)
  | some .directory => .error .directory
  | some (.file text) => loadText .file strict (some path) text

def loadFile (strict : Bool) (lookup : Lookup) (path : String) : Except LoadFault Config :=
  loadEntry strict (Path.normal path) (lookup (Path.normal path))

end Permits.Config
