import Permits.Statement.Basic

set_option autoImplicit false

namespace Permits

def isSegmentChar (c : Char) : Bool :=
  c.isAlphanum || c == '_' || c == '/' || c == '-'

def isName (cs : List Char) : Bool := !cs.isEmpty && cs.all Char.isAlphanum

def isPermission (cs : List Char) : Bool := cs == ['*'] || isName cs

namespace Grammar

/-- Reads a path from inside a segment; `filled` tells whether that segment holds a character. -/
def acceptsPath : Bool → List Char → Bool
  | filled, [] => filled
  | _, c :: rest =>
      if c = ':' then acceptsPath false rest
      else isSegmentChar c && acceptsPath true rest

def acceptsApp : Bool → List Char → Bool
  | filled, [] => filled
  | filled, c :: rest =>
      if c = ':' then filled && acceptsPath false rest
      else c.isAlphanum && acceptsApp true rest

def acceptsName : Bool → List Char → Bool
  | _, [] => false
  | filled, c :: rest =>
      if c = '@' then filled && acceptsApp false rest
      else c.isAlphanum && acceptsName true rest

def acceptsUnsigned : List Char → Bool
  | '*' :: '@' :: rest => acceptsApp false rest
  | cs => acceptsName false cs

def dropSign : List Char → List Char
  | [] => []
  | c :: rest => if c = '+' ∨ c = '-' then rest else c :: rest

def accepts (cs : List Char) : Bool := acceptsUnsigned (dropSign cs)

end Grammar

/-- Whether a text follows the statement grammar. -/
def isStatement (text : String) : Bool := Grammar.accepts text.toList

namespace Statement

/-- Takes a text apart: the sign is the first character, the permission ends at the first at sign,
and colons separate what follows. -/
def split (cs : List Char) : Statement :=
  let unsigned := Grammar.dropSign cs
  let pieces := ((unsigned.dropWhile (· != '@')).drop 1).splitOn ':'
  { effect := if cs.head? = some '-' then .deny else .grant
    permission := String.ofList (unsigned.takeWhile (· != '@'))
    app := String.ofList (pieces.headD [])
    segments := pieces.tail.map String.ofList }

def parse? (text : String) : Option Statement :=
  if isStatement text then some (split text.toList) else none

@[simp] theorem isSome_parse? (text : String) : (parse? text).isSome = isStatement text := by
  unfold parse?
  split <;> simp_all

end Statement

end Permits
