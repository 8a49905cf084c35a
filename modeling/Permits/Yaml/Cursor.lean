set_option autoImplicit false

namespace Permits.Yaml

def endMark : Char := '\x00'

def isBreak (c : Char) : Bool :=
  c = '\n' || c = '\r' || c.toNat = 0x85 || c.toNat = 0x2028 || c.toNat = 0x2029

def isLineEnd (c : Char) : Bool := c = endMark || isBreak c

def isSpaceOrTab (c : Char) : Bool := c = ' ' || c = '\t'

def isGap (c : Char) : Bool := isSpaceOrTab c || isLineEnd c

/-- The characters that a document may hold: no controls but for tabs and line ends, no surrogates
and none of the two last codes of the first plane. -/
def isDocumentChar (c : Char) : Bool :=
  let code := c.toNat
  c = '\t' || c = '\n' || c = '\r' || (0x20 ≤ code && code ≤ 0x7E) || code = 0x85 ||
    (0xA0 ≤ code && code ≤ 0xD7FF) || (0xE000 ≤ code && code ≤ 0xFFFD) || 0x10000 ≤ code

def folded (first : Char) (others : String) : String :=
  if first ≠ '\n' then String.singleton first ++ others
  else if others.isEmpty then " "
  else others

def byteOrderMark : Char := '\uFEFF'

/-- A place in a text. -/
structure Cursor where
  rest : List Char
  left : Nat
  line : Nat
  column : Nat

namespace Cursor

def start (text : List Char) : Cursor := ⟨text, text.length, 0, 0⟩

def atEnd (cursor : Cursor) : Bool := cursor.rest.isEmpty

def peekAt (cursor : Cursor) (distance : Nat) : Char := (cursor.rest.drop distance).headD endMark

def peek (cursor : Cursor) : Char := cursor.rest.headD endMark

/-- The place behind the next character. A carriage return before a line feed ends no line. -/
def next (cursor : Cursor) : Cursor :=
  match cursor.rest with
  | [] => cursor
  | c :: rest =>
      if isBreak c ∧ ¬(c = '\r' ∧ rest.head? = some '\n') then
        ⟨rest, cursor.left - 1, cursor.line + 1, 0⟩
      else
        ⟨rest, cursor.left - 1, cursor.line,
          if c = byteOrderMark then cursor.column else cursor.column + 1⟩

def forward (cursor : Cursor) : Nat → Cursor
  | 0 => cursor
  | count + 1 => cursor.next.forward count

def span (cursor : Cursor) (inClass : Char → Bool) : List Char × Cursor :=
  let run := cursor.rest.takeWhile inClass
  (run, cursor.forward run.length)

def skip (cursor : Cursor) (inClass : Char → Bool) : Cursor := (cursor.span inClass).2

def skipComment (cursor : Cursor) : Cursor :=
  if cursor.peek = '#' then cursor.skip (!isBreak ·) else cursor

/-- A line break and the place behind it. All breaks read as a line feed, except for the two
separators of Unicode, which stay. -/
def lineBreak? (cursor : Cursor) : Option (Char × Cursor) :=
  match cursor.rest with
  | [] => none
  | '\r' :: '\n' :: _ => some ('\n', cursor.forward 2)
  | c :: _ =>
      if isBreak c then some (if c.toNat < 0x100 then '\n' else c, cursor.next) else none

/-- Whether a mark of three hyphens or three points that bounds a document comes next. -/
def atBoundary (cursor : Cursor) (mark : Char) : Bool :=
  cursor.rest.take 3 = [mark, mark, mark] && isGap (cursor.peekAt 3)

def atSeparator (cursor : Cursor) : Bool := cursor.atBoundary '-' || cursor.atBoundary '.'

end Cursor

end Permits.Yaml
