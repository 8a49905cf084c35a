import Permits.Terminal.Width
import Permits.Text.Blank

set_option autoImplicit false

namespace Permits.Terminal

open Text (isBlank)

/-- What becomes of a text that is wider than its line. -/
inductive Overflow where
  | fold
  | ellipsis
  deriving DecidableEq

def pieces : List Char → List (List Char)
  | [] => []
  | c :: rest =>
      match pieces rest with
      | [] => [[c]]
      | piece :: others =>
          if isBlank c && piece.head?.any (!isBlank ·) then [c] :: piece :: others
          else (c :: piece) :: others

theorem flatten_pieces (cs : List Char) : (pieces cs).flatten = cs := by
  induction cs with
  | nil => rfl
  | cons c rest ih =>
      rw [pieces]
      split
      · rename_i empty
        rw [empty, List.flatten_nil] at ih
        rw [← ih]
        rfl
      · rename_i piece others found
        rw [found, List.flatten_cons] at ih
        split <;> simp [ih]

/-- The words of a text, each with the blanks behind it. Blanks at the start belong to the first. A
text of blanks has no words. -/
def words (cs : List Char) : List (List Char) :=
  match pieces cs with
  | [] => []
  | first :: rest =>
      if first.all isBlank then
        match rest with
        | [] => []
        | second :: others => (first ++ second) :: others
      else first :: rest

theorem flatten_words (cs : List Char) (visible : cs.any (!isBlank ·) = true) :
    (words cs).flatten = cs := by
  have joined : (pieces cs).flatten = cs := flatten_pieces cs
  cases found : pieces cs with
  | nil =>
      rw [found] at joined
      simp [words, found, joined]
  | cons first rest =>
      rw [found, List.flatten_cons] at joined
      cases rest with
      | nil =>
          have same : first = cs := by simpa using joined
          subst same
          have some_visible : ¬ first.all isBlank = true := by simpa using visible
          simp [words, found, some_visible]
      | cons second others =>
          unfold words
          rw [found]
          by_cases blank : first.all isBlank = true
          · simpa only [blank, ↓reduceIte, List.flatten_cons, List.append_assoc] using joined
          · simpa only [blank, Bool.false_eq_true, ↓reduceIte, List.flatten_cons] using joined

def trimEnd (cs : List Char) : List Char := (cs.reverse.dropWhile isBlank).reverse

/-- Folds a text: as many characters as fit on each line. `line` is the line so far and `used` its
width. -/
def foldFrom (width : Nat) (line : List Char) (used : Nat) : List Char → List (List Char)
  | [] => [line]
  | c :: rest =>
      if used + charWidth c > width then line :: foldFrom width [c] (charWidth c) rest
      else foldFrom width (line ++ [c]) (used + charWidth c) rest

def foldText (width : Nat) (cs : List Char) : List (List Char) := foldFrom width [] 0 cs

/-- Lines under construction: those that are complete, and the last one with its width. -/
structure Lines where
  complete : List (List Char)
  last : List Char
  used : Nat

namespace Lines

def empty : Lines := ⟨[], [], 0⟩

def start (lines : Lines) (text : List Char) : Lines :=
  if lines.last.isEmpty then { lines with last := text, used := textWidth text }
  else ⟨lines.complete ++ [lines.last], text, textWidth text⟩

def add (width : Nat) (overflow : Overflow) (lines : Lines) (word : List Char) : Lines :=
  let size := textWidth (trimEnd word)
  if lines.used + size ≤ width then
    { lines with last := lines.last ++ word, used := lines.used + textWidth word }
  else if size ≤ width then lines.start word
  else
    match overflow with
    | .fold => (foldText width word).foldl start lines
    | .ellipsis => lines.start word

def all (lines : Lines) : List (List Char) := lines.complete ++ [lines.last]

end Lines

/-- Drops blanks at the end of a line as far as it has more characters than a width. -/
def dropExcess (width : Nat) (line : List Char) : List Char :=
  let blanks := line.length - (trimEnd line).length
  line.take (line.length - min blanks (line.length - width))

def breakLine (width : Nat) (overflow : Overflow) (cs : List Char) : List (List Char) :=
  match words cs with
  | [] => [dropExcess width cs]
  | found => ((found.foldl (Lines.add width overflow) .empty).all).map (dropExcess width)

/-- The characters of a text that fit into a width, with a space where half a character would be. -/
def fitting (width : Nat) : List Char → List Char
  | [] => []
  | c :: rest =>
      if charWidth c ≤ width then c :: fitting (width - charWidth c) rest
      else List.replicate width ' '

def cut (width : Nat) (overflow : Overflow) (line : List Char) : List Char :=
  if textWidth line ≤ width then line
  else
    match overflow with
    | .fold => fitting width line
    | .ellipsis => fitting (width - 1) line ++ ['…']

def padded (width : Nat) (line : List Char) : List Char :=
  line ++ List.replicate (width - textWidth line) ' '

def centred (width : Nat) (line : List Char) : List Char :=
  padded width (List.replicate ((width - textWidth line) / 2) ' ' ++ line)

/-- A text with its tabs replaced: a space and then spaces up to a column that is a multiple of
eight. -/
def expandTabs (column : Nat) : List Char → List Char
  | [] => []
  | c :: rest =>
      if c = '\t' then
        let next := (column + 8) / 8 * 8
        List.replicate (next - column) ' ' ++ expandTabs next rest
      else c :: expandTabs (column + charWidth c) rest

def wrap (width : Nat) (overflow : Overflow) (cs : List Char) : List (List Char) :=
  (cs.splitOn '\n').flatMap fun line =>
    (breakLine width overflow (expandTabs 0 line)).map (cut width overflow)

end Permits.Terminal
