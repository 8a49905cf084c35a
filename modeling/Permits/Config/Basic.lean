import Permits.Value.Basic

set_option autoImplicit false

namespace Permits

/-- One source of permissions in a configuration. -/
structure BlockConfig where
  name : Option String
  statements : List String
  extra : List (String × Value)

/-- A configuration that follows the schema. -/
structure Config where
  version : String
  description : Option String
  blocks : List BlockConfig
  extra : List (String × Value)

def sortedNames (entries : List (String × Value)) : List String :=
  (entries.map Prod.fst).mergeSort fun first second => decide (first ≤ second)

namespace BlockConfig

/-- The name of the block at an index. A block without one, or with an empty one, is named by the
index. -/
def nameAt (block : BlockConfig) (index : Nat) : String :=
  let numbered := "block-" ++ toString index
  match block.name with
  | some name => if name = "" then numbered else name
  | none => numbered

end BlockConfig

namespace Config

def statementBlocks (config : Config) : List (List String) :=
  config.blocks.map BlockConfig.statements

def blockNames (config : Config) : List String :=
  config.blocks.zipIdx.map fun (block, index) => block.nameAt index

end Config

end Permits
