import Permits.Yaml.Cursor
import Permits.Yaml.Fault

set_option autoImplicit false

namespace Permits.Yaml.Block

/-- What becomes of the breaks at the end of a block: all are dropped, or all but the first, or
none. -/
inductive Chomping where
  | strip
  | clip
  | keep
  deriving DecidableEq

structure Heading where
  chomping : Chomping
  indentation : Option Nat

def chomping? (cursor : Cursor) : Option (Chomping × Cursor) :=
  match cursor.peek with
  | '+' => some (.keep, cursor.next)
  | '-' => some (.strip, cursor.next)
  | _ => none

def indentation? (cursor : Cursor) : Except Fault (Option Nat × Cursor) :=
  let c := cursor.peek
  if c = '0' then .error .malformed
  else if c.isDigit then .ok (some (c.toNat - '0'.toNat), cursor.next)
  else .ok (none, cursor)

def heading (cursor : Cursor) : Except Fault (Heading × Cursor) := do
  let (heading, after) ← (match chomping? cursor with
    | some (chomping, next) => do
        let (indentation, next) ← indentation? next
        return (⟨chomping, indentation⟩, next)
    | none => do
        let (indentation, next) ← indentation? cursor
        match indentation, chomping? next with
        | some _, some (chomping, last) => return (⟨chomping, indentation⟩, last)
        | _, _ => return (⟨.clip, indentation⟩, next) : Except Fault (Heading × Cursor))
  if after.peek = ' ' || isLineEnd after.peek then return (heading, after) else throw .malformed

/-- The place behind the rest of a line that holds nothing but perhaps a comment. -/
def lineRest (cursor : Cursor) : Except Fault Cursor :=
  let after := (cursor.skip (· = ' ')).skipComment
  match after.lineBreak? with
  | some (_, next) => .ok next
  | none => if after.atEnd then .ok after else .error .malformed

def skipTo (column : Nat) (cursor : Cursor) : Cursor :=
  let spaces := (cursor.rest.takeWhile (· = ' ')).length
  cursor.forward (min spaces (column - cursor.column))

/-- The breaks of empty lines, and the place behind the indentation of the line after them. -/
def breaks (column : Nat) (cursor : Cursor) : String × Cursor :=
  let after := skipTo column cursor
  match after.lineBreak? with
  | none => ("", after)
  | some (c, next) =>
      if next.left < cursor.left then
        let (more, last) := breaks column next
        (String.singleton c ++ more, last)
      else ("", after)
termination_by cursor.left

/-- The breaks before the first line of a block, and the greatest column reached by spaces. -/
def leading (greatest : Nat) (cursor : Cursor) : String × Nat × Cursor :=
  let after := cursor.skip (· = ' ')
  let greatest := max greatest after.column
  match after.lineBreak? with
  | none => ("", greatest, after)
  | some (c, next) =>
      if next.left < cursor.left then
        let (more, greatest, last) := leading greatest next
        (String.singleton c ++ more, greatest, last)
      else ("", greatest, after)
termination_by cursor.left

/-- The text of a block without the breaks at its end; the break of its last line and the breaks of
the empty lines behind it follow. -/
structure Body where
  text : String
  lastBreak : String
  emptyLines : String

/-- Reads the lines of a block: `text` is read, `others` are the breaks of the empty lines behind
it. Lines that start with a space or a tab are not folded. -/
def lines (isFolded : Bool) (column : Nat) (text others : String) (cursor : Cursor) :
    Body × Cursor :=
  if cursor.column ≠ column ∨ cursor.atEnd then (⟨text, "", others⟩, cursor)
  else
    let (line, after) := cursor.span (!isBreak ·)
    let text := text ++ others ++ String.ofList line
    match after.lineBreak? with
    | none => (⟨text, "", ""⟩, after)
    | some (c, next) =>
        let (others, last) := breaks column next
        if last.column ≠ column ∨ last.atEnd then (⟨text, String.singleton c, others⟩, last)
        else
          let joins := isFolded && c = '\n' && !isSpaceOrTab cursor.peek && !isSpaceOrTab last.peek
          let joint :=
            if !joins then String.singleton c else if others.isEmpty then " " else ""
          if last.left < cursor.left then lines isFolded column (text ++ joint) others last
          else (⟨text, "", ""⟩, last)
termination_by cursor.left

def Chomping.finish (chomping : Chomping) (body : Body) : String :=
  match chomping with
  | .strip => body.text
  | .clip => body.text ++ body.lastBreak
  | .keep => body.text ++ body.lastBreak ++ body.emptyLines

/-- Reads a block; the cursor is at its sign. The lines are indented by what the heading says
beyond the margin, or else as far as the first line that is not empty. -/
def read (margin : Nat) (cursor : Cursor) : Except Fault (String × Cursor) := do
  let (heading, after) ← heading cursor.next
  let after ← lineRest after
  let least := max margin 1
  let (others, column, first) :=
    match heading.indentation with
    | some indentation =>
        let column := least + indentation - 1
        let (others, first) := breaks column after
        (others, column, first)
    | none =>
        let (others, greatest, first) := leading 0 after
        (others, max least greatest, first)
  let (body, last) := lines (cursor.peek = '>') column "" others first
  return (heading.chomping.finish body, last)

end Permits.Yaml.Block
