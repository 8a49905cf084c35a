import Permits.Proofs.Terminal.Folding
import Permits.Terminal.Screen

set_option autoImplicit false

namespace Permits.Terminal

open Text (isBlank)

theorem foldl_max_le_iff {α : Type} (width : α → Nat) (things : List α) (least bound : Nat) :
    things.foldl (fun most thing => max most (width thing)) least ≤ bound ↔
      least ≤ bound ∧ ∀ thing ∈ things, width thing ≤ bound := by
  induction things generalizing least with
  | nil => simp
  | cons thing rest ih =>
      simp only [List.foldl_cons, List.forall_mem_cons, ih, Nat.max_le, and_assoc]

theorem le_foldl_max {α : Type} (width : α → Nat) {things : List α} {thing : α}
    (present : thing ∈ things) (least : Nat) :
    width thing ≤ things.foldl (fun most thing => max most (width thing)) least :=
  ((foldl_max_le_iff width things least _).mp (Nat.le_refl _)).2 thing present

theorem mem_padded {width : Nat} {line : List Char} {c : Char} (present : c ∈ padded width line) :
    c ∈ line ∨ c = ' ' := by
  rw [padded, List.mem_append] at present
  exact present.imp_right List.eq_of_mem_replicate

theorem mem_trimEnd {cs : List Char} {c : Char} (present : c ∈ trimEnd cs) : c ∈ cs := by
  obtain ⟨blanks, whole, -⟩ := exists_blanks cs
  rw [whole]
  exact List.mem_append_left _ present

namespace Listing

/-- The lines in front of the rows of a table: the title, a blank line, the headings and a rule. -/
def top (width : Nat) (title : List Char) (headings : List (List Char)) : List (List Char) :=
  ((wrap width .fold title).map fun line => centred width (trimEnd line)) ++
    stroke ' ' width :: headings ++ [' ' :: stroke '─' (width - 2) ++ [' ']]

theorem lines_eq {listing : Listing} {width : Nat}
    (whole : total listing.widths + listing.edges = width) :
    listing.lines = top width listing.title (rowLines listing.widths listing.headings) ++
      listing.rows.flatMap (rowLines listing.widths) ++ [stroke ' ' width] := by
  rw [lines]
  simp [whole, top]

/-- In front of the rows stand only the characters of the title and the headings, spaces and the
rule. -/
theorem mem_of_mem_top {width : Nat} {title : List Char} {headings : List (List Char)}
    (roomy : 0 < width) (narrow : Narrow title) (shows : title.any (!isBlank ·) = true)
    {line : List Char} (present : line ∈ top width title headings) {c : Char} (here : c ∈ line) :
    c ∈ title ∨ c ∈ headings.flatten ∨ c = ' ' ∨ c = '─' := by
  simp only [top, List.mem_append, List.mem_map, List.mem_cons, List.not_mem_nil,
    or_false] at present
  rcases present with (⟨folded, inside, rfl⟩ | rfl | heading) | rfl
  · rcases mem_padded here with before | space
    · rcases List.mem_append.mp before with space | kept
      · exact Or.inr (Or.inr (Or.inl (List.eq_of_mem_replicate space)))
      · exact Or.inl (mem_of_mem_wrap_fold roomy narrow shows inside (mem_trimEnd kept))
    · exact Or.inr (Or.inr (Or.inl space))
  · exact Or.inr (Or.inr (Or.inl (List.eq_of_mem_replicate here)))
  · exact Or.inr (Or.inl (List.mem_flatten.mpr ⟨line, heading, here⟩))
  · simp only [stroke, List.mem_append, List.mem_cons, List.mem_replicate, List.not_mem_nil,
      or_false] at here
    rcases here with (space | ⟨-, rule⟩) | space
    · exact Or.inr (Or.inr (Or.inl space))
    · exact Or.inr (Or.inr (Or.inr rule))
    · exact Or.inr (Or.inr (Or.inl space))

/-- The width of the widest cell, the heading included. -/
def widest (heading : List Char) (cells : List (List Char)) : Nat :=
  (heading :: cells).foldl (fun most cell => max most (cellWidth cell)) 0

theorem cellWidth_le_widest (heading : List Char) {cells : List (List Char)} {cell : List Char}
    (present : cell ∈ heading :: cells) : cellWidth cell ≤ widest heading cells :=
  le_foldl_max cellWidth present 0

def rowLine (first last : Nat) (left right : List Char) : List Char :=
  "  ".toList ++ padded first left ++ "   ".toList ++ padded last right ++ "  ".toList

/-- The lines of a row of two cells, the second of which is written on the first line. -/
def rowOf (first last : Nat) (cell text : List Char) : List (List Char) :=
  let lines := wrap first .ellipsis cell
  rowLine first last (lines.headD []) text :: lines.tail.map (rowLine first last · [])

theorem mem_rowLine {first last : Nat} {left right : List Char} {c : Char}
    (present : c ∈ rowLine first last left right) : c ∈ left ∨ c ∈ right ∨ c = ' ' := by
  have two : ∀ c ∈ "  ".toList, c = ' ' := by simp
  have three : ∀ c ∈ "   ".toList, c = ' ' := by simp
  simp only [rowLine, List.mem_append] at present
  rcases present with (((space | inLeft) | space) | inRight) | space
  · exact Or.inr (Or.inr (two c space))
  · exact (mem_padded inLeft).imp_right Or.inr
  · exact Or.inr (Or.inr (three c space))
  · exact Or.inr (mem_padded inRight)
  · exact Or.inr (Or.inr (two c space))

theorem rowLines_two (first last : Nat) (cell text : List Char) :
    let left := wrap first .ellipsis cell
    let right := wrap last .ellipsis text
    rowLines [first + 2, last + 2] [cell, text] =
      (List.range (max left.length right.length)).map fun index =>
        rowLine first last (left.getD index []) (right.getD index []) := by
  intro left right
  have blank (width : Nat) : stroke ' ' width = padded width [] := by simp [stroke, padded]
  rw [rowLines]
  simp only [List.zip_cons_cons, List.zip_nil_right, List.map_cons, List.map_nil, List.foldl_cons,
    List.foldl_nil, Nat.add_sub_cancel, blank, List.length_map, Nat.zero_max]
  apply List.map_congr_left
  intro index _
  simp [rowLine, left, right]

/-- The second cell of a row is written in full if it stays on one line and is not cut. -/
theorem rowLines_eq_rowOf {first last : Nat} {cell text : List Char}
    (whole : wrap last .ellipsis text = [text]) :
    rowLines [first + 2, last + 2] [cell, text] = rowOf first last cell text := by
  rw [rowLines_two, rowOf, whole]
  cases wrap first .ellipsis cell with
  | nil => rfl
  | cons line more =>
      have height : max (line :: more).length [text].length = more.length + 1 := by simp
      rw [height, List.range_succ_eq_map, List.map_cons, List.map_map]
      congr 1
      apply List.ext_getElem
      · simp
      · intro index before _
        have inside : index < more.length := by simpa using before
        simp [inside]

section TwoColumns

variable (title first last : List Char) (rows : List (List (List Char)))

/-- The width of the second column without its margins. -/
def lastWidth : Nat := widest last (rows.map (·.getD 1 []))

/-- The width of the first column, which gives way if the screen is too narrow. -/
def firstWidth : Nat :=
  min (widest first (rows.map (·.getD 0 []))) (screenWidth - 7 - lastWidth last rows)

theorem widths_twoColumns (fits : lastWidth last rows ≤ screenWidth - 7) :
    widths ⟨title, [first, last], rows⟩ =
      [firstWidth first last rows + 2, lastWidth last rows + 2] := by
  have wanted : wantedWidths ⟨title, [first, last], rows⟩ =
      [widest first (rows.map (·.getD 0 [])) + 2, lastWidth last rows + 2] := rfl
  rw [widths, wanted]
  simp only [firstWidth, edges, total, screenWidth, List.length_cons, List.length_nil,
    List.foldl_cons, List.foldl_nil, List.cons.injEq, and_true] at fits ⊢
  omega

end TwoColumns

end Listing

end Permits.Terminal
