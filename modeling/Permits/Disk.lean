set_option autoImplicit false

namespace Permits

namespace Path

def parts (path : String) : List String := (path.toList.splitOn '/').map String.ofList

def isIdle (part : String) : Bool := part = "" || part = "."

/-- The slashes that a path keeps in front. Exactly two are kept as they are. -/
def root (path : String) : String :=
  match (path.toList.takeWhile (· = '/')).length with
  | 0 => ""
  | 2 => "//"
  | _ => "/"

def normal (path : String) : String :=
  let kept := (parts path).filter (!isIdle ·)
  let text := root path ++ "/".intercalate kept
  if text = "" then "." else text

end Path

/-- What a path can name. -/
inductive DiskEntry where
  | file (text : String)
  | directory
  deriving DecidableEq

abbrev Lookup : Type := String → Option DiskEntry

end Permits
