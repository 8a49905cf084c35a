import Permits.Text.Blank

set_option autoImplicit false

namespace Permits.Terminal.Markup

-- A tag starts with a letter or a sign of its own and ends at the first closing bracket, with no
-- opening bracket before that. Other brackets are text, and so is a tag behind a backslash.

def startsTag (c : Char) : Bool := ('a' ≤ c && c ≤ 'z') || c = '#' || c = '/' || c = '@'

/-- The number of characters before the closing bracket, if no opening bracket comes first. -/
def closing? : List Char → Option Nat
  | [] => none
  | c :: rest =>
      if c = ']' then some 0
      else if c = '[' then none
      else (closing? rest).map (· + 1)

/-- The length of the tag behind an opening bracket, with its closing bracket. -/
def tagLength? : List Char → Option Nat
  | [] => none
  | first :: rest => if startsTag first then (closing? rest).map (· + 2) else none

def backslashes (count : Nat) : List Char := List.replicate count '\\'

def escapeFrom (before : Nat) : List Char → List Char
  | [] => backslashes before
  | c :: rest =>
      if c = '\\' then escapeFrom (before + 1) rest
      else
        match if c = '[' then tagLength? rest else none with
        | some length =>
            backslashes (2 * before + 1) ++ c :: rest.take length ++
              escapeFrom 0 (rest.drop length)
        | none => backslashes before ++ c :: escapeFrom 0 rest
termination_by cs => cs.length
decreasing_by all_goals (simp only [List.length_cons, List.length_drop]; omega)

def escape (cs : List Char) : List Char :=
  let escaped := escapeFrom 0 cs
  -- a single backslash at the end is doubled
  if escaped.getLast? = some '\\' ∧ escaped.dropLast.getLast? ≠ some '\\' then escaped ++ ['\\']
  else escaped

def styleName (tag : List Char) : List Char :=
  (Text.trimBlank (tag.takeWhile (· ≠ '='))).map Char.toLower

def afterTag? (tag : List Char) (opened : List (List Char)) : Option (List (List Char)) :=
  match tag with
  | '/' :: name =>
      if styleName name = [] then
        match opened with
        | [] => none
        | _ :: rest => some rest
      else if styleName name ∈ opened then some (opened.erase (styleName name))
      else none
  | name => some (styleName name :: opened)

def glue (front : List Char) : List (List Char) → List (List Char)
  | [] => [front]
  | first :: others => (front ++ first) :: others

/-- The shown texts of markup behind a number of backslashes, with some styles open. Every tag ends
a text. Two backslashes before a tag are one, and a single one keeps the tag as a text of its own;
before a bracket that opens no tag, one backslash vanishes. -/
def shownFrom? (opened : List (List Char)) (before : Nat) : List Char → Option (List (List Char))
  | [] => some [backslashes before]
  | c :: rest =>
      if c = '\\' then shownFrom? opened (before + 1) rest
      else
        match if c = '[' then tagLength? rest else none with
        | some length =>
            let later := rest.drop length
            if before % 2 = 1 then
              (shownFrom? opened 0 later).map
                ([[], backslashes (before / 2), c :: rest.take length] ++ ·)
            else
              (afterTag? (rest.take (length - 1)) opened).bind fun opened =>
                (shownFrom? opened 0 later).map ([[], backslashes (before / 2)] ++ ·)
        | none =>
            let kept := if c = '[' then before - 1 else before
            (shownFrom? opened 0 rest).map (glue (backslashes kept ++ [c]))
termination_by cs => cs.length
decreasing_by all_goals (simp only [List.length_cons, List.length_drop]; omega)

def shown? (cs : List Char) : Option (List (List Char)) := shownFrom? [] 0 cs

/-- What a terminal shows for a name between two colons, for the names that it knows. -/
abbrev Emojis : Type := String → Option String

def shownName (emojis : Emojis) (name : List Char) : List Char :=
  (emojis (String.ofList name)).elim (':' :: name ++ [':']) String.toList

/-- Joins what stands between colons. The first part is no name, and names have no blanks. -/
def joinNames (emojis : Emojis) : List (List Char) → List Char
  | [] => []
  | [last] => last
  | [first, last] => first ++ ':' :: last
  | first :: name :: next :: rest =>
      if name.any Text.isBlank then first ++ ':' :: joinNames emojis (name :: next :: rest)
      else first ++ shownName emojis name ++ joinNames emojis (next :: rest)

/-- A text with the names between colons replaced, as far as the terminal knows them. -/
def emojify (emojis : Emojis) (cs : List Char) : List Char := joinNames emojis (cs.splitOn ':')

def isDropped (c : Char) : Bool := [7, 8, 11, 12, 13].contains c.toNat

/-- The text that a terminal shows for a text that is to be shown as it is. There is none if the
text closes a style that is not open. -/
def display? (emojis : Emojis) (text : String) : Option (List Char) :=
  (shown? (escape text.toList)).map fun texts =>
    (texts.flatMap (emojify emojis)).filter (!isDropped ·)

end Permits.Terminal.Markup
