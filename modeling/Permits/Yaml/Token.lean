import Permits.Yaml.Fault

set_option autoImplicit false

namespace Permits.Yaml

/-- What a line with a percent sign says about the document. -/
inductive Directive where
  | version (major : Nat)
  | handle (name target : String)
  | other
  deriving DecidableEq

/-- A token. Tags are a handle, unless they are written in full, and a suffix. -/
inductive Token where
  | directive (directive : Directive)
  | documentStart
  | documentEnd
  | blockSequenceStart
  | blockMappingStart
  | blockEnd
  | flowSequenceStart
  | flowSequenceEnd
  | flowMappingStart
  | flowMappingEnd
  | blockEntry
  | flowEntry
  | key
  | value
  | alias (name : String)
  | anchor (name : String)
  | tag (handle : Option String) (suffix : String)
  | scalar (text : String) ( isPlain : Bool)
  | streamEnd
  deriving DecidableEq

/-- The tokens of a text, and the fault that stopped the reading if it did not reach the end. -/
structure TokenStream where
  tokens : List Token
  fault : Option Fault

end Permits.Yaml
