import Permits.Proofs.Terminal.Listing

set_option autoImplicit false

namespace Permits.Terminal

open Text (isBlank)

/-- A text that stays on one line: a word of narrow characters. -/
structure Unbroken (cs : List Char) : Prop where
  nonempty : cs ≠ []
  narrow : Narrow cs
  solid : ∀ c ∈ cs, isBlank c = false

theorem Unbroken.of_all {cs : List Char} (nonempty : cs ≠ []) (narrow : Narrow cs)
    (solid : cs.all (!isBlank ·) = true) : Unbroken cs :=
  ⟨nonempty, narrow, by simpa using solid⟩

theorem Unbroken.wrap {cs : List Char} (unbroken : Unbroken cs) (width : Nat) :
    wrap width .ellipsis cs = [cut width .ellipsis cs] :=
  wrap_word unbroken.nonempty unbroken.solid unbroken.narrow width

theorem splitOn_printed {lines : List (List Char)} (whole : ∀ line ∈ lines, '\n' ∉ line) :
    (printed lines).toList.splitOn '\n' = lines ++ [[]] := by
  rw [printed, String.toList_ofList]
  induction lines with
  | nil => rfl
  | cons line rest ih =>
      rw [List.forall_mem_cons] at whole
      rw [List.flatMap_cons, List.append_assoc, List.singleton_append, List.splitOn,
        List.splitOnP_append_cons _ _ (by simp), ← List.splitOn, ← List.splitOn, ih whole.2,
        List.splitOn_eq_singleton whole.1]
      rfl

theorem printed_append (first second : List (List Char)) :
    printed (first ++ second) = printed first ++ printed second := by
  simp [printed]

theorem printed_injective {first second : List (List Char)} (whole : ∀ line ∈ first, '\n' ∉ line)
    (whole' : ∀ line ∈ second, '\n' ∉ line) (same : printed first = printed second) :
    first = second := by
  have lines := splitOn_printed whole
  rw [same, splitOn_printed whole'] at lines
  exact (List.append_cancel_right lines).symm

namespace Listing

theorem endsLine_of_narrow {c : Char} (narrow : charWidth c = 1) : endsLine c = false := by
  cases ends : endsLine c with
  | false => rfl
  | true =>
      have same := Char.ofNat_toNat c
      have newline : c = '\n' ↔ c.toNat = 10 := by
        constructor
        · rintro rfl
          rfl
        · intro code
          rw [← same, code]
      simp only [endsLine, Bool.or_eq_true, Bool.and_eq_true, decide_eq_true_eq, newline] at ends
      have codes : c.toNat = 10 ∨ c.toNat = 28 ∨ c.toNat = 29 ∨ c.toNat = 30 ∨ c.toNat = 0x85 ∨
          c.toNat = 0x2028 ∨ c.toNat = 0x2029 := by omega
      rcases codes with code | code | code | code | code | code | code <;>
        rw [code] at same <;> exact absurd (same ▸ narrow) (by decide)

theorem cellWidth_of_narrow {cell : List Char} (narrow : Narrow cell) :
    cellWidth cell = cell.length := by
  have whole : cell.splitOnP endsLine = [cell] :=
    List.splitOnP_eq_singleton fun c present => endsLine_of_narrow (narrow c present)
  rw [cellWidth, whole, List.foldl_cons, List.foldl_nil, Nat.zero_max, narrow.textWidth]

/-- A line of a table with one column: a text in a column of the given width, and its margins. -/
def margined (width : Nat) (text : List Char) : List Char :=
  ' ' :: ' ' :: padded width text ++ [' ', ' ']

theorem rowLines_single {width : Nat} {cell line : List Char}
    (whole : wrap width .ellipsis cell = [line]) :
    rowLines [width + 2] [cell] = [margined width line] := by
  have column : (wrap (width + 2 - 2) .ellipsis cell).map (padded (width + 2 - 2)) =
      [padded width line] := by
    rw [Nat.add_sub_cancel, whole]
    rfl
  rw [rowLines]
  simp only [List.zip_cons_cons, List.zip_nil_right, List.map_cons, List.map_nil, column]
  simp [margined]

section Column

variable (title heading : List Char) (cells : List (List Char))

def column : Listing := ⟨title, [heading], cells.map ([·])⟩

/-- The most characters of a cell that a screen has room for. -/
def cellRoom : Nat := screenWidth - 4

/-- The width of the column: that of the widest cell, as far as the screen goes. -/
def columnWidth : Nat := min (widest heading cells) cellRoom

theorem widths_column :
    (column title heading cells).widths = [columnWidth heading cells + 2] := by
  have wanted : (column title heading cells).wantedWidths = [widest heading cells + 2] := by
    simp [column, wantedWidths, widest, List.map_map, Function.comp_def]
  rw [widths, wanted]
  simp only [columnWidth, cellRoom, column, edges, total, screenWidth, List.length_singleton,
    List.foldl_nil, List.cons.injEq, and_true]
  omega

end Column

def shown (cell : List Char) : List Char := cut cellRoom .ellipsis cell

theorem shown_of_narrow {cell : List Char} (narrow : Narrow cell) :
    shown cell = if cell.length ≤ cellRoom then cell else cell.take (cellRoom - 1) ++ ['…'] :=
  narrow.cut_ellipsis cellRoom

theorem length_shown {cell : List Char} (narrow : Narrow cell) :
    (shown cell).length = min cell.length cellRoom := by
  rw [shown_of_narrow narrow]
  split
  · omega
  · rw [List.length_append, List.length_take, List.length_singleton, cellRoom, screenWidth] at *
    omega

theorem narrow_shown {cell : List Char} (narrow : Narrow cell) : Narrow (shown cell) := by
  rw [shown_of_narrow narrow]
  split
  · exact narrow
  · have kept : Narrow (cell.take (cellRoom - 1)) :=
      narrow.of_subset fun c present => List.mem_of_mem_take present
    exact kept.append (by decide +kernel)

section Words

variable (title : List Char) {heading : List Char} (name : Unbroken heading)
  (short : heading.length ≤ cellRoom) {cells : List (List Char)}
  (words : ∀ cell ∈ cells, Unbroken cell)

include words in
theorem length_le_widest {cell : List Char} (present : cell ∈ cells) :
    cell.length ≤ widest heading cells := by
  rw [← cellWidth_of_narrow (words cell present).narrow]
  exact cellWidth_le_widest heading (List.mem_cons_of_mem heading present)

include words in
theorem wrap_columnWidth {cell : List Char} (present : cell ∈ cells) :
    wrap (columnWidth heading cells) .ellipsis cell = [shown cell] := by
  have within : cell.length ≤ widest heading cells := length_le_widest words present
  have narrow := (words cell present).narrow
  rw [(words cell present).wrap, narrow.cut_ellipsis, shown_of_narrow narrow, columnWidth]
  by_cases fits : cell.length ≤ cellRoom
  · rw [if_pos fits, if_pos (by omega)]
  · rw [if_neg fits, if_neg (by omega), Nat.min_eq_right (by omega)]

include name short in
theorem wrap_heading : wrap (columnWidth heading cells) .ellipsis heading = [heading] := by
  have within : heading.length ≤ widest heading cells := by
    rw [← cellWidth_of_narrow name.narrow]
    exact cellWidth_le_widest heading List.mem_cons_self
  rw [name.wrap, name.narrow.cut_ellipsis, columnWidth, if_pos (by omega)]

include name short words in
theorem lines_column :
    (column title heading cells).lines = top (columnWidth heading cells + 4) title
        [margined (columnWidth heading cells) heading] ++
      (cells.map fun cell => margined (columnWidth heading cells) (shown cell)) ++
        [stroke ' ' (columnWidth heading cells + 4)] := by
  have rows : (column title heading cells).rows.flatMap (rowLines [columnWidth heading cells + 2]) =
      cells.map fun cell => margined (columnWidth heading cells) (shown cell) := by
    rw [column, List.flatMap_map, List.map_eq_flatMap, List.flatMap_def, List.flatMap_def]
    congr 1
    apply List.map_congr_left
    intro cell present
    exact rowLines_single (wrap_columnWidth words present)
  have first : rowLines [columnWidth heading cells + 2] (column title heading cells).headings =
      [margined (columnWidth heading cells) heading] := rowLines_single (wrap_heading name short)
  have width : total [columnWidth heading cells + 2] + (column title heading cells).edges =
      columnWidth heading cells + 4 := by
    simp only [total, edges, column, List.foldl_cons, List.foldl_nil, List.length_singleton]
    omega
  rw [lines_eq (by rw [widths_column, width]), widths_column, rows, first]
  rfl

include words in
theorem columnWidth_shown : columnWidth heading (cells.map shown) = columnWidth heading cells := by
  by_cases all : ∀ cell ∈ cells, cell.length ≤ cellRoom
  · have same : cells.map shown = cells.map id := by
      apply List.map_congr_left
      intro cell present
      rw [shown_of_narrow (words cell present).narrow, if_pos (all cell present), id]
    rw [same, List.map_id]
  · -- A word that is cut fills the screen, and so does what is left of it.
    obtain ⟨cell, present, long⟩ : ∃ cell ∈ cells, ¬ cell.length ≤ cellRoom := by
      simpa using all
    have narrow := (words cell present).narrow
    have before : cell.length ≤ widest heading cells := length_le_widest words present
    have behind : (shown cell).length ≤ widest heading (cells.map shown) := by
      rw [← cellWidth_of_narrow (narrow_shown narrow)]
      exact cellWidth_le_widest heading
        (List.mem_cons_of_mem heading (List.mem_map_of_mem present))
    rw [length_shown narrow] at behind
    rw [columnWidth, columnWidth]
    omega

include name short words in
theorem lines_column_congr {others : List (List Char)} (words' : ∀ cell ∈ others, Unbroken cell)
    (same : others.map shown = cells.map shown) :
    (column title heading others).lines = (column title heading cells).lines := by
  have width : columnWidth heading others = columnWidth heading cells := by
    rw [← columnWidth_shown words', same, columnWidth_shown words]
  have rows : (others.map fun cell => margined (columnWidth heading cells) (shown cell)) =
      cells.map fun cell => margined (columnWidth heading cells) (shown cell) := by
    have margins := congrArg (List.map (margined (columnWidth heading cells))) same
    simpa [List.map_map, Function.comp_def] using margins
  rw [lines_column title name short words', lines_column title name short words, width, rows]

end Words

def wordOf (line : List Char) : List Char := (line.drop 2).takeWhile (· ≠ ' ')

theorem wordOf_margined (width : Nat) {text : List Char} (word : ' ' ∉ text) :
    wordOf (margined width text) = text := by
  have filled : ∀ c ∈ text, decide (c ≠ ' ') = true := by
    intro c present
    rw [decide_eq_true_eq]
    exact fun blank => word (blank ▸ present)
  have spaces : (List.replicate (width - textWidth text) ' ' ++ [' ', ' ']).takeWhile
      (fun c => decide (c ≠ ' ')) = [] := by
    cases width - textWidth text <;> simp [List.replicate_succ]
  rw [wordOf, margined, padded]
  simp only [List.cons_append, List.append_assoc, List.drop_succ_cons, List.drop_zero]
  rw [List.takeWhile_append_of_pos filled, spaces, List.append_nil]

theorem mem_margined {width : Nat} {text : List Char} {c : Char}
    (present : c ∈ margined width text) : c ∈ text ∨ c = ' ' := by
  simp only [margined, List.mem_append, List.mem_cons, List.not_mem_nil, or_false] at present
  rcases present with (space | space | inside) | space | space
  · exact Or.inr space
  · exact Or.inr space
  · exact mem_padded inside
  · exact Or.inr space
  · exact Or.inr space

end Listing

end Permits.Terminal
