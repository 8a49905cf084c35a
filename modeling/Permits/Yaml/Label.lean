import Permits.Text.Decimal
import Permits.Yaml.Cursor
import Permits.Yaml.Token

set_option autoImplicit false

namespace Permits.Yaml.Label

/-- The characters of anchors, of tag handles and of the names of directives. -/
def isWordChar (c : Char) : Bool := c.isAlphanum || c = '-' || c = '_'

def isAddressChar (c : Char) : Bool :=
  c.isAlphanum || "-;/?:@&=+$,_.!~*\x27()[]%".toList.contains c

def isEnd (c : Char) : Bool := c = ' ' || isLineEnd c

def word (mayFollow : Char → Bool) (cursor : Cursor) : Except Fault (String × Cursor) :=
  let (name, after) := cursor.span isWordChar
  if name.isEmpty || !mayFollow after.peek then .error .malformed
  else .ok (String.ofList name, after)

def name (cursor : Cursor) : Except Fault (String × Cursor) :=
  word (fun c => isGap c || ['?', ':', ',', ']', '\x7d', '%', '@', '\x60'].contains c) cursor

def addressBytes? : List Char → Option (List UInt8)
  | '%' :: high :: low :: rest =>
      (Text.digits? 16 [high, low]).bind fun code =>
        (addressBytes? rest).map (code.toUInt8 :: ·)
  | c :: rest => if c = '%' then none else (addressBytes? rest).map (c.toUInt8 :: ·)
  | [] => some []

def address (cursor : Cursor) : Except Fault (String × Cursor) :=
  let (written, after) := cursor.span isAddressChar
  match (addressBytes? written).bind fun bytes => String.fromUTF8? ⟨bytes.toArray⟩ with
  | some text => if written.isEmpty then .error .malformed else .ok (text, after)
  | none => .error .malformed

def handle (cursor : Cursor) : Except Fault (String × Cursor) :=
  let (letters, after) := cursor.next.span isWordChar
  if cursor.peek ≠ '!' then .error .malformed
  else if cursor.peekAt 1 = ' ' then .ok ("!", cursor.next)
  else if after.peek ≠ '!' then .error .malformed
  else .ok (String.ofList ('!' :: letters ++ ['!']), after.next)

/-- A tag: in full between angle brackets, or alone, or a suffix behind a handle. -/
def tag (cursor : Cursor) : Except Fault (Token × Cursor) := do
  let (token, after) ←
    (if cursor.peekAt 1 = '<' then do
      let (suffix, after) ← address (cursor.forward 2)
      if after.peek = '>' then return (.tag none suffix, after.next) else throw .malformed
    else if isGap (cursor.peekAt 1) then return (.tag none "!", cursor.next)
    else do
      let (name, after) ←
        if (cursor.next.rest.takeWhile (!isEnd ·)).contains '!' then handle cursor
        else Except.ok ("!", cursor.next)
      let (suffix, after) ← address after
      return (.tag (some name) suffix, after) : Except Fault (Token × Cursor))
  if isEnd after.peek then return (token, after) else throw .malformed

def versionNumber (cursor : Cursor) : Except Fault (Nat × Cursor) :=
  let (digits, after) := cursor.span Char.isDigit
  match Text.digits? 10 digits with
  | none => .error .malformed
  | some number =>
      if Text.mostDigits < digits.length then .error (.scalar .noSuchValue)
      else .ok (number, after)

def version (cursor : Cursor) : Except Fault (Nat × Cursor) := do
  let (major, after) ← versionNumber cursor
  if after.peek ≠ '.' then throw .malformed
  let (_, last) ← versionNumber after.next
  if isEnd last.peek then return (major, last) else throw .malformed

/-- A directive; the cursor is at its percent sign. Nothing but a comment may follow on its line. -/
def directive (cursor : Cursor) : Except Fault (Token × Cursor) := do
  let (name, after) ← word isEnd cursor.next
  let (found, after) ←
    (match name with
    | "YAML" => do
        let (major, after) ← version (after.skip (· = ' '))
        return (.version major, after)
    | "TAG" => do
        let (name, after) ← handle (after.skip (· = ' '))
        if after.peek ≠ ' ' then throw .malformed
        let (target, after) ← address (after.skip (· = ' '))
        if isEnd after.peek then return (.handle name target, after) else throw .malformed
    | _ => return (.other, after.skip (!isLineEnd ·)) : Except Fault (Directive × Cursor))
  let last := (after.skip (· = ' ')).skipComment
  match last.lineBreak? with
  | some (_, next) => return (.directive found, next)
  | none => if last.atEnd then return (.directive found, last) else throw .malformed

end Permits.Yaml.Label
