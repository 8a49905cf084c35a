import Permits.Yaml.Cursor

set_option autoImplicit false

namespace Permits.Yaml.Plain

def isFlowMark (c : Char) : Bool := [',', '?', '[', ']', '\x7b', '\x7d'].contains c

/-- Whether a colon before these characters belongs to the mapping and not to the text. -/
def endsKey (inFlow : Bool) (rest : List Char) : Bool :=
  let c := rest.headD endMark
  isGap c || (inFlow && c ≠ '?' && isFlowMark c)

def runLength (inFlow : Bool) : List Char → Nat
  | [] => 0
  | c :: rest =>
      if isGap c || (c = ':' && endsKey inFlow rest) || (inFlow && isFlowMark c) then 0
      else runLength inFlow rest + 1

def breaks (cursor : Cursor) : Option String × Cursor :=
  if cursor.atSeparator then (none, cursor)
  else
    let after := cursor.skip (· = ' ')
    match after.lineBreak? with
    | none => (some "", after)
    | some (c, next) =>
        if next.left < cursor.left then
          let (more, last) := breaks next
          (more.map (String.singleton c ++ ·), last)
        else (some "", after)
termination_by cursor.left

/-- The space between two runs of a plain text, with whether it crosses a line. It is empty where
the text ends. -/
def spacing (cursor : Cursor) : String × Bool × Cursor :=
  let (spaces, after) := cursor.span (· = ' ')
  match after.lineBreak? with
  | none => (String.ofList spaces, false, after)
  | some (c, next) =>
      match breaks next with
      | (none, last) => ("", true, last)
      | (some others, last) => (folded c others, true, last)

/-- Reads on in a plain text: `text` is read, and `between` stands before the next run if there is
one. A text of a block ends where a line starts left of the margin. The result tells whether a line
was crossed behind the text. -/
def readFrom (inFlow : Bool) (margin : Nat) (text between : String) (crossed : Bool)
    (cursor : Cursor) : String × Bool × Cursor :=
  let length := runLength inFlow cursor.rest
  if length = 0 then (text, crossed, cursor)
  else
    let text := text ++ between ++ String.ofList (cursor.rest.take length)
    let (between, crossed, next) := spacing (cursor.forward length)
    if between.isEmpty || next.peek = '#' || (!inFlow && next.column < margin) then
      (text, crossed, next)
    else if next.left < cursor.left then readFrom inFlow margin text between crossed next
    else (text, crossed, next)
termination_by cursor.left

def read (inFlow : Bool) (margin : Nat) (cursor : Cursor) : String × Bool × Cursor :=
  readFrom inFlow margin "" "" false cursor

end Permits.Yaml.Plain
