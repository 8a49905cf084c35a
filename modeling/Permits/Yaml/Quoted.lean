import Permits.Text.Decimal
import Permits.Yaml.Cursor
import Permits.Yaml.Fault

set_option autoImplicit false

namespace Permits.Yaml.Quoted

def escaped? (letter : Char) : Option Char :=
  match letter with
  | '0' => some '\x00'
  | 'a' => some '\x07'
  | 'b' => some '\x08'
  | 't' | '\t' => some '\t'
  | 'n' => some '\n'
  | 'v' => some '\x0b'
  | 'f' => some '\x0c'
  | 'r' => some '\r'
  | 'e' => some '\x1b'
  | ' ' => some ' '
  | '\x22' => some '\x22'
  | '\\' => some '\\'
  | '/' => some '/'
  | 'N' => some '\u0085'
  | '_' => some '\u00a0'
  | 'L' => some '\u2028'
  | 'P' => some '\u2029'
  | _ => none

def digitCount? (letter : Char) : Option Nat :=
  match letter with
  | 'x' => some 2
  | 'u' => some 4
  | 'U' => some 8
  | _ => none

def hex? (count : Nat) (cs : List Char) : Option Nat :=
  let digits := cs.take count
  if digits.length = count then Text.digits? 16 digits else none

/-- The character of a number. Texts with halves of characters are not read here. -/
def character (code : Nat) (after : Cursor) : Except Fault (String × Cursor) :=
  if 0x80000000 ≤ code then .error (.scalar .numberTooLarge)
  else if 0x110000 ≤ code then .error (.scalar .noSuchValue)
  else if 0xD800 ≤ code ∧ code < 0xE000 then .error .unsupported
  else .ok (String.singleton (Char.ofNat code), after)

def breaks (cursor : Cursor) : Except Fault (String × Cursor) :=
  if cursor.atSeparator then .error .malformed
  else
    let after := cursor.skip isSpaceOrTab
    match after.lineBreak? with
    | none => .ok ("", after)
    | some (c, next) =>
        if next.left < cursor.left then
          (breaks next).map fun (more, last) => (String.singleton c ++ more, last)
        else .ok ("", after)
termination_by cursor.left

def spacing (cursor : Cursor) : Except Fault (String × Cursor) :=
  let (spaces, after) := cursor.span isSpaceOrTab
  match after.lineBreak? with
  | none => .ok (String.ofList spaces, after)
  | some (c, next) => (breaks next).map fun (others, last) => (folded c others, last)

/-- What a backslash starts; the cursor is behind it. A line break vanishes with the spaces that
follow. -/
def escape (cursor : Cursor) : Except Fault (String × Cursor) :=
  match escaped? cursor.peek, digitCount? cursor.peek with
  | some c, _ => .ok (String.singleton c, cursor.next)
  | none, some count =>
      match hex? count cursor.next.rest with
      | some code => character code (cursor.next.forward count)
      | none => .error .malformed
  | none, none =>
      match cursor.lineBreak? with
      | some (_, next) => breaks next
      | none => .error .malformed

def piece? (quote : Char) (cursor : Cursor) : Except Fault (Option (String × Cursor)) :=
  let c := cursor.peek
  if c = quote then
    if quote = '\x27' ∧ cursor.peekAt 1 = quote then
      .ok (some (String.singleton quote, cursor.forward 2))
    else .ok none
  else if cursor.atEnd then .error .malformed
  else if quote = '\x22' ∧ c = '\\' then (escape cursor.next).map some
  else if isGap c then (spacing cursor).map some
  else .ok (some (String.singleton c, cursor.next))

def readFrom (quote : Char) (text : String) (cursor : Cursor) : Except Fault (String × Cursor) :=
  match piece? quote cursor with
  | .error fault => .error fault
  | .ok none => .ok (text, cursor.next)
  | .ok (some (piece, next)) =>
      if next.left < cursor.left then readFrom quote (text ++ piece) next else .error .malformed
termination_by cursor.left

def read (cursor : Cursor) : Except Fault (String × Cursor) :=
  readFrom cursor.peek "" cursor.next

end Permits.Yaml.Quoted
