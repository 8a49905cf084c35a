import Permits.Config.Source
import Permits.Decision.Basic

set_option autoImplicit false

namespace Permits

def release : String := "1.1.1"

/-- The permissions of one holder. -/
structure Guard where
  tree : Tree

namespace Guard

/-- The guard of a list of blocks, with the records of its build; a fault leaves no guard. -/
def ofBlocks (blocks : Value) : Except BuildFault Guard × List Record :=
  let run := Builder.empty.buildValue blocks
  match run.fault with
  | some fault => (.error fault, run.records)
  | none => (.ok ⟨run.builder.tree⟩, run.records)

def ofTexts (blocks : List (List String)) : Guard × List Record :=
  let run := Builder.empty.buildTexts blocks
  (⟨run.builder.tree⟩, run.records)

/-- The guard of a configuration file, with the records of its load and its build. -/
def ofFile (strict : Bool) (lookup : Lookup) (path : String) :
    Except LoadFault Guard × List Record :=
  match Config.loadFile strict lookup path with
  | .error fault => (.error fault, [])
  | .ok config =>
      let (guard, records) := ofTexts config.statementBlocks
      (.ok guard, config.loadRecord (some (Path.normal path)) :: records)

def explain (guard : Guard) (request : Value) : Decision := guard.tree.authorize request

def allows (guard : Guard) (request : Value) : Bool := (guard.explain request).authorized

def statements (guard : Guard) : List String := guard.tree.statements

def display (guard : Guard) : String :=
  let apps := guard.tree.names.mergeSort fun first second => decide (first ≤ second)
  "PermissionGuard(apps=" ++ Text.quotedList apps ++ ")"

end Guard

end Permits
