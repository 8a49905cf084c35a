import Permits.Terminal.Wrap

set_option autoImplicit false

namespace Permits.Terminal

open Text (isBlank)

/-- Whether every character takes one column. -/
def Narrow (cs : List Char) : Prop := ∀ c ∈ cs, charWidth c = 1

instance decidableNarrow (cs : List Char) : Decidable (Narrow cs) :=
  decidable_of_iff (cs.all (charWidth · = 1) = true) (by simp [Narrow])

/-- The characters of a text that are no blanks. -/
def visible (cs : List Char) : List Char := cs.filter (!isBlank ·)

theorem visible_append (first second : List Char) :
    visible (first ++ second) = visible first ++ visible second := List.filter_append ..

theorem visible_of_blank {cs : List Char} (blank : ∀ c ∈ cs, isBlank c = true) :
    visible cs = [] := by
  rw [visible, List.filter_eq_nil_iff]
  intro c present
  simp [blank c present]

theorem visible_of_no_blank {cs : List Char} (solid : ∀ c ∈ cs, isBlank c = false) :
    visible cs = cs := by
  rw [visible, List.filter_eq_self]
  intro c present
  simp [solid c present]

theorem visible_flatten_map {f : List Char → List Char} {lines : List (List Char)}
    (kept : ∀ line ∈ lines, visible (f line) = visible line) :
    visible (lines.map f).flatten = visible lines.flatten := by
  induction lines with
  | nil => rfl
  | cons line rest ih =>
      rw [List.forall_mem_cons] at kept
      rw [List.map_cons, List.flatten_cons, List.flatten_cons, visible_append, visible_append,
        kept.1, ih kept.2]

namespace Narrow

variable {cs : List Char}

theorem append {first second : List Char} (narrow : Narrow first) (narrow' : Narrow second) :
    Narrow (first ++ second) := by
  intro c present
  rcases List.mem_append.mp present with before | behind
  · exact narrow c before
  · exact narrow' c behind

theorem of_subset {part : List Char} (narrow : Narrow cs) (inside : ∀ c ∈ part, c ∈ cs) :
    Narrow part := fun c present => narrow c (inside c present)

theorem textWidth (narrow : Narrow cs) : textWidth cs = cs.length := by
  induction cs with
  | nil => rfl
  | cons c rest ih =>
      rw [Narrow, List.forall_mem_cons] at narrow
      rw [textWidth_cons, narrow.1, ih narrow.2, List.length_cons, Nat.add_comm]

theorem fitting (narrow : Narrow cs) (width : Nat) : fitting width cs = cs.take width := by
  induction cs generalizing width with
  | nil => simp [Terminal.fitting]
  | cons c rest ih =>
      rw [Narrow, List.forall_mem_cons] at narrow
      cases width with
      | zero => simp [Terminal.fitting, narrow.1]
      | succ width => simp [Terminal.fitting, narrow.1, ih narrow.2]

theorem cut_ellipsis (narrow : Narrow cs) (width : Nat) :
    cut width .ellipsis cs = if cs.length ≤ width then cs else cs.take (width - 1) ++ ['…'] := by
  rw [cut, narrow.textWidth, narrow.fitting]

theorem expandTabs (narrow : Narrow cs) (column : Nat) : expandTabs column cs = cs := by
  induction cs generalizing column with
  | nil => rfl
  | cons c rest ih =>
      rw [Narrow, List.forall_mem_cons] at narrow
      have other : c ≠ '\t' := by
        rintro rfl
        exact absurd narrow.1 (by decide)
      rw [Terminal.expandTabs, if_neg other, ih narrow.2]

theorem wrap (narrow : Narrow cs) (width : Nat) (overflow : Overflow) :
    wrap width overflow cs = (breakLine width overflow cs).map (cut width overflow) := by
  have unbroken : '\n' ∉ cs := fun present => absurd (narrow '\n' present) (by decide)
  rw [Terminal.wrap, List.splitOn_eq_singleton unbroken, List.flatMap_singleton, narrow.expandTabs]

end Narrow

theorem exists_blanks (cs : List Char) :
    ∃ blanks, cs = trimEnd cs ++ blanks ∧ ∀ c ∈ blanks, isBlank c = true := by
  refine ⟨(cs.reverse.takeWhile isBlank).reverse, ?_, ?_⟩
  · rw [trimEnd, ← List.reverse_append, List.takeWhile_append_dropWhile, List.reverse_reverse]
  · intro c present
    exact List.all_eq_true.mp List.all_takeWhile c (List.mem_reverse.mp present)

theorem trimEnd_of_no_blank {cs : List Char} (solid : ∀ c ∈ cs, isBlank c = false) :
    trimEnd cs = cs := by
  obtain ⟨blanks, whole, blank⟩ := exists_blanks cs
  have none : blanks = [] := by
    rw [List.eq_nil_iff_forall_not_mem]
    intro c present
    have inside : c ∈ cs := by
      rw [whole]
      exact List.mem_append_right _ present
    have both := blank c present
    rw [solid c inside] at both
    cases both
  rw [none, List.append_nil] at whole
  exact whole.symm

/-- What is added behind a text adds at most its own width, blanks at its end apart. -/
theorem textWidth_trimEnd_append_le (first second : List Char) :
    textWidth (trimEnd (first ++ second)) ≤ textWidth first + textWidth (trimEnd second) := by
  obtain ⟨blanks, whole, -⟩ := exists_blanks first
  have part := congrArg textWidth whole
  rw [textWidth_append] at part
  by_cases blank : (second.reverse.dropWhile isBlank).isEmpty
  · have same : trimEnd (first ++ second) = trimEnd first := by
      rw [trimEnd, trimEnd, List.reverse_append, List.dropWhile_append, if_pos blank]
    rw [same]
    omega
  · have same : trimEnd (first ++ second) = first ++ trimEnd second := by
      rw [trimEnd, trimEnd, List.reverse_append, List.dropWhile_append, if_neg blank,
        List.reverse_append, List.reverse_reverse]
    exact Nat.le_of_eq (by rw [same, textWidth_append])

theorem visible_take {line : List Char} {count : Nat} (most : (trimEnd line).length ≤ count) :
    visible (line.take count) = visible line := by
  obtain ⟨blanks, whole, blank⟩ := exists_blanks line
  have kept : line.take count = trimEnd line ++ blanks.take (count - (trimEnd line).length) := by
    conv =>
      lhs
      rw [whole]
    rw [List.take_append, List.take_of_length_le most]
  have shown : visible line = visible (trimEnd line) := by
    conv =>
      lhs
      rw [whole]
    rw [visible_append, visible_of_blank blank, List.append_nil]
  have gone : visible (blanks.take (count - (trimEnd line).length)) = [] :=
    visible_of_blank fun c present => blank c (List.mem_of_mem_take present)
  rw [kept, visible_append, gone, List.append_nil, shown]

theorem visible_dropExcess (width : Nat) (line : List Char) :
    visible (dropExcess width line) = visible line := by
  obtain ⟨blanks, whole, -⟩ := exists_blanks line
  have size := congrArg List.length whole
  rw [List.length_append] at size
  apply visible_take
  omega

theorem length_dropExcess_le {width : Nat} {line : List Char} (narrow : Narrow line)
    (fits : textWidth (trimEnd line) ≤ width) : (dropExcess width line).length ≤ width := by
  obtain ⟨blanks, whole, -⟩ := exists_blanks line
  have size := congrArg List.length whole
  rw [List.length_append] at size
  have front : Narrow (trimEnd line) := narrow.of_subset fun c present => by
    rw [whole]
    exact List.mem_append_left _ present
  rw [front.textWidth] at fits
  rw [dropExcess, List.length_take]
  omega

theorem cut_of_fits {width : Nat} {line : List Char} (fits : textWidth line ≤ width)
    (overflow : Overflow) : cut width overflow line = line := if_pos fits

theorem flatten_foldFrom (width : Nat) (line : List Char) (used : Nat) (cs : List Char) :
    (foldFrom width line used cs).flatten = line ++ cs := by
  induction cs generalizing line used with
  | nil => simp [foldFrom]
  | cons c rest ih =>
      rw [foldFrom]
      split
      · rw [List.flatten_cons, ih, List.singleton_append]
      · rw [ih, List.append_assoc, List.singleton_append]

theorem textWidth_le_of_mem_foldFrom {width : Nat} {line cs : List Char}
    (begun : textWidth line ≤ width) (single : ∀ c ∈ cs, charWidth c ≤ width) :
    ∀ folded ∈ foldFrom width line (textWidth line) cs, textWidth folded ≤ width := by
  induction cs generalizing line with
  | nil => simpa [foldFrom] using begun
  | cons c rest ih =>
      rw [List.forall_mem_cons] at single
      rw [foldFrom]
      split
      · rw [List.forall_mem_cons]
        have fresh : textWidth [c] = charWidth c := by simp
        have later := ih (fresh ▸ single.1) single.2
        rw [fresh] at later
        exact ⟨begun, later⟩
      · rename_i more
        have longer : textWidth (line ++ [c]) = textWidth line + charWidth c := by
          simp [textWidth_append]
        rw [← longer]
        exact ih (by omega) single.2

namespace Lines

/-- Lines under construction that hold a text and keep within a width, blanks at their ends
apart. -/
structure Holds (width : Nat) (lines : Lines) (cs : List Char) : Prop where
  used : lines.used = textWidth lines.last
  whole : lines.all.flatten = cs
  fits : ∀ line ∈ lines.all, textWidth (trimEnd line) ≤ width

variable {width : Nat} {lines : Lines} {cs : List Char}

theorem holds_empty (width : Nat) : empty.Holds width [] := by
  refine ⟨rfl, rfl, ?_⟩
  intro line present
  have none : line = [] := List.mem_singleton.mp present
  rw [none]
  exact Nat.zero_le _

theorem Holds.start (holds : lines.Holds width cs) {text : List Char}
    (fits : textWidth (trimEnd text) ≤ width) : (lines.start text).Holds width (cs ++ text) := by
  have whole := holds.whole
  have before := holds.fits
  rw [all, List.forall_mem_append] at before
  rw [all, List.flatten_append] at whole
  unfold Lines.start
  by_cases nothing : lines.last.isEmpty = true
  · rw [if_pos nothing]
    rw [List.isEmpty_iff] at nothing
    refine ⟨rfl, ?_, ?_⟩
    · rw [← whole, nothing]
      simp [all]
    · rw [all, List.forall_mem_append]
      exact ⟨before.1, by simpa using fits⟩
  · rw [if_neg nothing]
    refine ⟨rfl, ?_, ?_⟩
    · rw [← whole]
      simp [all]
    · rw [all, List.forall_mem_append, List.forall_mem_append]
      exact ⟨before, by simpa using fits⟩

theorem Holds.foldl_start (holds : lines.Holds width cs) {texts : List (List Char)}
    (fits : ∀ text ∈ texts, textWidth (trimEnd text) ≤ width) :
    (texts.foldl Lines.start lines).Holds width (cs ++ texts.flatten) := by
  induction texts generalizing lines cs with
  | nil => simpa using holds
  | cons text rest ih =>
      rw [List.forall_mem_cons] at fits
      rw [List.foldl_cons, List.flatten_cons, ← List.append_assoc]
      exact ih (holds.start fits.1) fits.2

theorem Holds.add (holds : lines.Holds width cs) {word : List Char}
    (single : ∀ c ∈ word, charWidth c ≤ width) :
    (lines.add width .fold word).Holds width (cs ++ word) := by
  have whole := holds.whole
  have before := holds.fits
  rw [all, List.forall_mem_append] at before
  rw [all, List.flatten_append] at whole
  unfold Lines.add
  simp only []
  split
  · rename_i room
    rw [holds.used] at room
    refine ⟨?_, ?_, ?_⟩
    · rw [textWidth_append, holds.used]
    · rw [← whole]
      simp [all]
    · rw [all, List.forall_mem_append]
      refine ⟨before.1, ?_⟩
      have longer := textWidth_trimEnd_append_le lines.last word
      simp only [List.mem_singleton, forall_eq]
      omega
  · split
    · rename_i fits
      exact holds.start fits
    · have folded : (foldText width word).flatten = word := flatten_foldFrom width [] 0 word
      have fits : ∀ text ∈ foldText width word, textWidth (trimEnd text) ≤ width := by
        intro text present
        have nothing : textWidth [] ≤ width := Nat.zero_le width
        have line := textWidth_le_of_mem_foldFrom nothing single text present
        obtain ⟨blanks, same, -⟩ := exists_blanks text
        rw [same, textWidth_append] at line
        omega
      have started := holds.foldl_start fits
      rwa [folded] at started

theorem Holds.foldl_add (holds : lines.Holds width cs) {found : List (List Char)}
    (single : ∀ word ∈ found, ∀ c ∈ word, charWidth c ≤ width) :
    (found.foldl (Lines.add width .fold) lines).Holds width (cs ++ found.flatten) := by
  induction found generalizing lines cs with
  | nil => simpa using holds
  | cons word rest ih =>
      rw [List.forall_mem_cons] at single
      rw [List.foldl_cons, List.flatten_cons, ← List.append_assoc]
      exact ih (holds.add single.1) single.2

end Lines

section Fold

variable {width : Nat} {cs : List Char} (roomy : 0 < width) (narrow : Narrow cs)
  (shows : cs.any (!isBlank ·) = true)
include roomy narrow shows

theorem exists_folded :
    ∃ lines : List (List Char), wrap width .fold cs = lines.map (dropExcess width) ∧
      lines.flatten = cs := by
  have joined := flatten_words cs shows
  have single : ∀ word ∈ words cs, ∀ c ∈ word, charWidth c ≤ width := by
    intro word present c inside
    have here : c ∈ cs := by
      rw [← joined]
      exact List.mem_flatten.mpr ⟨word, present, inside⟩
    rw [narrow c here]
    exact roomy
  have holds := (Lines.holds_empty width).foldl_add single
  rw [List.nil_append, joined] at holds
  have broken : breakLine width .fold cs =
      (((words cs).foldl (Lines.add width .fold) .empty).all).map (dropExcess width) := by
    rw [breakLine]
    split
    · rename_i none
      rw [none, List.flatten_nil] at joined
      rw [← joined] at shows
      cases shows
    · rfl
  refine ⟨_, ?_, holds.whole⟩
  rw [narrow.wrap, broken, List.map_map]
  apply List.map_congr_left
  intro line present
  have narrowLine : Narrow line := narrow.of_subset fun c here => by
    rw [← holds.whole]
    exact List.mem_flatten.mpr ⟨line, present, here⟩
  have dropped : Narrow (dropExcess width line) :=
    narrowLine.of_subset fun c here => List.mem_of_mem_take here
  apply cut_of_fits
  rw [dropped.textWidth]
  exact length_dropExcess_le narrowLine (holds.fits line present)

theorem visible_wrap_fold : visible (wrap width .fold cs).flatten = visible cs := by
  obtain ⟨lines, same, whole⟩ := exists_folded roomy narrow shows
  rw [same, visible_flatten_map fun line _ => visible_dropExcess width line, whole]

theorem mem_of_mem_wrap_fold {line : List Char} (present : line ∈ wrap width .fold cs) {c : Char}
    (here : c ∈ line) : c ∈ cs := by
  obtain ⟨lines, same, whole⟩ := exists_folded roomy narrow shows
  rw [same] at present
  obtain ⟨before, listed, rfl⟩ := List.mem_map.mp present
  rw [← whole]
  exact List.mem_flatten.mpr ⟨before, listed, List.mem_of_mem_take here⟩

end Fold

section Word

variable {word : List Char} (nonempty : word ≠ []) (solid : ∀ c ∈ word, isBlank c = false)
include nonempty solid

theorem pieces_word : pieces word = [word] := by
  induction word with
  | nil => exact absurd rfl nonempty
  | cons c rest ih =>
      rw [List.forall_mem_cons] at solid
      cases rest with
      | nil => rfl
      | cons second others =>
          rw [pieces, ih (List.cons_ne_nil _ _) solid.2]
          simp [solid.1]

theorem words_word : words word = [word] := by
  have shows : word.all isBlank = false := by
    obtain ⟨c, rest, rfl⟩ := List.exists_cons_of_ne_nil nonempty
    rw [List.forall_mem_cons] at solid
    simp [solid.1]
  rw [words, pieces_word nonempty solid]
  simp [shows]

theorem breakLine_word (width : Nat) : breakLine width .ellipsis word = [word] := by
  have whole : dropExcess width word = word := by
    rw [dropExcess, trimEnd_of_no_blank solid]
    simp
  have added : (Lines.add width .ellipsis .empty word).all = [word] := by
    unfold Lines.add
    simp only []
    split
    · rfl
    · split <;> rfl
  rw [breakLine, words_word nonempty solid]
  simp [added, whole]

theorem wrap_word (narrow : Narrow word) (width : Nat) :
    wrap width .ellipsis word = [cut width .ellipsis word] := by
  rw [narrow.wrap, breakLine_word nonempty solid, List.map_singleton]

end Word

end Permits.Terminal
