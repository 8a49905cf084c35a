import Permits.Value.Basic

set_option autoImplicit false

namespace Permits

/-- The part of the library that speaks in a record. -/
inductive Channel where
  | builder
  | authorizer
  | loader
  deriving DecidableEq

/-- How much a record matters. -/
inductive Level where
  | debug
  | info
  deriving DecidableEq

/-- Something that happened. -/
inductive Record where
  /-- An entry of a block was no statement. -/
  | malformed (entry : Value)
  /-- A block had entries that were no statements. -/
  | skipped (block count : Nat)
  /-- A request was decided. -/
  | decided (authorized : Bool) (request : Value) (reason : String)
  /-- A configuration was loaded, from a named source or from a value at hand. -/
  | loaded (blocks : Nat) (source : Option String)

namespace Record

def channel : Record → Channel
  | malformed _ => .builder
  | skipped _ _ => .builder
  | decided _ _ _ => .authorizer
  | loaded _ _ => .loader

def level : Record → Level
  | loaded _ _ => .info
  | _ => .debug

def message : Record → String
  | malformed entry => "Skipping malformed permission statement " ++ entry.display
  | skipped block count =>
      "Block " ++ toString block ++ ": skipped " ++ toString count ++ " malformed statement(s)"
  | decided authorized request reason =>
      "Authorization " ++ (if authorized then "GRANTED" else "DENIED") ++ " for " ++
        request.display ++ ": " ++ reason
  | loaded blocks source =>
      "Loaded " ++ toString blocks ++ " permission blocks from " ++ source.getD "<dict>"

end Record

namespace Level

def name : Level → String
  | debug => "DEBUG"
  | info => "INFO"

end Level

end Permits
