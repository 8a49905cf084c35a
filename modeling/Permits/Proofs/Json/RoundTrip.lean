import Mathlib.Data.List.Forall2
import Permits.Proofs.Json.Reader

set_option autoImplicit false

namespace Permits.Json

def IsGap (gap : List Char) : Prop := ∀ c ∈ gap, isBlank c = true

theorem IsGap.nil : IsGap [] := fun _ present => absurd present List.not_mem_nil

theorem IsGap.space : IsGap [' '] := by
  rintro c (_ | ⟨_, ⟨⟩⟩)
  rfl

def quoted (text : String) : List Char := '\x22' :: text.toList.flatMap escapeChar ++ ['\x22']

@[simp] theorem toList_quoteText (text : String) : (quoteText text).toList = quoted text :=
  String.toList_ofList

mutual

/-- The spellings of a document. -/
inductive Spells : Json → List Char → Prop where
  | null : Spells null ['n', 'u', 'l', 'l']
  | boolTrue : Spells (bool true) ['t', 'r', 'u', 'e']
  | boolFalse : Spells (bool false) ['f', 'a', 'l', 's', 'e']
  | int (value : Int) : Spells (int value) (toString value).toList
  | text (value : String) : Spells (text value) (quoted value)
  | emptyList {gap : List Char} : IsGap gap → Spells (list []) ('[' :: gap ++ [']'])
  | list {items : List Json} {cs : List Char} :
      SpellsItems items cs → Spells (list items) ('[' :: cs)
  | emptyObject {gap : List Char} : IsGap gap → Spells (object []) ('\x7b' :: gap ++ ['\x7d'])
  | object {members : List (String × Json)} {cs : List Char} :
      SpellsMembers members cs → Spells (object members) ('\x7b' :: cs)

/-- The spellings of items with the closing bracket. -/
inductive SpellsItems : List Json → List Char → Prop where
  | last {item : Json} {before cs after : List Char} : IsGap before → Spells item cs → IsGap after →
      SpellsItems [item] (before ++ (cs ++ (after ++ [']'])))
  | cons {item : Json} {items : List Json} {before cs after rest : List Char} :
      IsGap before → Spells item cs → IsGap after → SpellsItems items rest →
      SpellsItems (item :: items) (before ++ (cs ++ (after ++ ',' :: rest)))

/-- The spellings of members with the closing bracket. -/
inductive SpellsMembers : List (String × Json) → List Char → Prop where
  | last {name : String} {value : Json} {before middle inner cs after : List Char} :
      IsGap before → IsGap middle → IsGap inner → Spells value cs → IsGap after →
      SpellsMembers [(name, value)]
        (before ++ (quoted name ++ (middle ++ ':' :: (inner ++ (cs ++ (after ++ ['\x7d']))))))
  | cons {name : String} {value : Json} {members : List (String × Json)}
      {before middle inner cs after rest : List Char} :
      IsGap before → IsGap middle → IsGap inner → Spells value cs → IsGap after →
      SpellsMembers members rest →
      SpellsMembers ((name, value) :: members)
        (before ++ (quoted name ++ (middle ++ ':' :: (inner ++ (cs ++ (after ++ ',' :: rest))))))

end

theorem skipBlanks_append {gap : List Char} (blank : IsGap gap) (cs : List Char) :
    skipBlanks (gap ++ cs) = skipBlanks cs :=
  List.dropWhile_append_of_pos blank

theorem skipBlanks_cons {c : Char} (printed : isBlank c = false) (rest : List Char) :
    skipBlanks (c :: rest) = c :: rest :=
  List.dropWhile_cons_of_neg (by simp [printed])

theorem isBlank_eq_false_of_isDigit {c : Char} (digit : c.isDigit = true) : isBlank c = false := by
  cases blank : isBlank c with
  | false => rfl
  | true =>
      simp only [isBlank, Bool.or_eq_true, decide_eq_true_eq] at blank
      rcases blank with ((rfl | rfl) | rfl) | rfl <;> cases digit

theorem Apart.of_isGap {gap : List Char} (blank : IsGap gap) : Apart gap := by
  intro c first
  cases digit : c.isDigit with
  | false => rfl
  | true =>
      have starts := blank c (List.mem_of_mem_head? first)
      rw [isBlank_eq_false_of_isDigit digit] at starts
      cases starts

theorem Apart.gap_append_cons {gap : List Char} (blank : IsGap gap) {c : Char}
    (other : c.isDigit = false) (rest : List Char) : Apart (gap ++ c :: rest) := by
  cases gap with
  | nil =>
      rintro _ ⟨⟩
      exact other
  | cons first gap =>
      rintro _ ⟨⟩
      exact Apart.of_isGap blank first rfl

theorem exists_head_toString (value : Int) :
    ∃ c later, (toString value).toList = c :: later ∧ (c = '-' ∨ c.isDigit = true) := by
  cases value with
  | ofNat n =>
      have digit : ∀ c ∈ Nat.toDigits 10 n, c.isDigit = true := fun c present =>
        Nat.isDigit_of_mem_toDigits (by decide) (by decide) present
      obtain ⟨c, later, digits⟩ := List.exists_cons_of_ne_nil (@Nat.toDigits_ne_nil n 10)
      rw [digits] at digit
      exact ⟨c, later, (toList_toString_ofNat n).trans digits,
        Or.inr (digit c List.mem_cons_self)⟩
  | negSucc n => exact ⟨_, _, toList_toString_negSucc n, Or.inl rfl⟩

theorem Spells.exists_head {value : Json} {cs : List Char} (spelled : Spells value cs) :
    ∃ c later, cs = c :: later ∧ isBlank c = false ∧ c ≠ ']' := by
  cases spelled with
  | int value =>
      obtain ⟨c, later, written, sign | digit⟩ := exists_head_toString value
      · exact ⟨c, later, written, sign ▸ by decide, sign ▸ by decide⟩
      · refine ⟨c, later, written, isBlank_eq_false_of_isDigit digit, ?_⟩
        rintro rfl
        cases digit
  | _ => exact ⟨_, _, rfl, by decide, by decide⟩

theorem Spells.skipBlanks_append {value : Json} {cs : List Char} (spelled : Spells value cs)
    {gap : List Char} (blank : IsGap gap) (rest : List Char) :
    skipBlanks (gap ++ (cs ++ rest)) = cs ++ rest := by
  obtain ⟨c, later, rfl, printed, -⟩ := spelled.exists_head
  rw [Json.skipBlanks_append blank, List.cons_append, skipBlanks_cons printed]

theorem SpellsItems.skipBlanks_append_ne {items : List Json} {cs : List Char}
    (spelled : SpellsItems items cs) (rest later : List Char) :
    skipBlanks (cs ++ rest) ≠ ']' :: later := by
  have opens : ∀ {value : Json} {before inner : List Char}, IsGap before → Spells value inner →
      ∀ after, skipBlanks (before ++ (inner ++ after)) ≠ ']' :: later := by
    intro value before inner blank spells after
    rw [spells.skipBlanks_append blank]
    obtain ⟨c, later, rfl, -, other⟩ := spells.exists_head
    exact fun same => other (List.cons.inj same).1
  cases spelled with
  | last before spells after =>
      rw [List.append_assoc, List.append_assoc]
      exact opens before spells _
  | cons before spells after others =>
      rw [List.append_assoc, List.append_assoc]
      exact opens before spells _

theorem exists_quoted_append (value : String) (rest : List Char) :
    ∃ inner, quoted value ++ rest = '\x22' :: inner ∧ readText inner = some (value, rest) := by
  refine ⟨value.toList.flatMap escapeChar ++ '\x22' :: rest, ?_, readText_quoted value rest⟩
  simp [quoted]

theorem SpellsMembers.skipBlanks_append_ne {members : List (String × Json)} {cs : List Char}
    (spelled : SpellsMembers members cs) (rest later : List Char) :
    skipBlanks (cs ++ rest) ≠ '\x7d' :: later := by
  have opens : ∀ {before : List Char}, IsGap before → ∀ name after,
      skipBlanks (before ++ (quoted name ++ after)) ≠ '\x7d' :: later := by
    intro before blank name after
    rw [skipBlanks_append blank]
    exact fun same => absurd (List.cons.inj same).1 (by decide)
  cases spelled with
  | last before middle inner spells after =>
      rw [List.append_assoc, List.append_assoc]
      exact opens before _ _
  | cons before middle inner spells after others =>
      rw [List.append_assoc, List.append_assoc]
      exact opens before _ _

theorem readValue_toString (value : Int) (fuel : Nat) {rest : List Char} (apart : Apart rest) :
    readValue (fuel + 1) ((toString value).toList ++ rest) = some (int value, rest) := by
  have same := readInt_toString value apart
  obtain ⟨c, later, written, begins⟩ := exists_head_toString value
  rw [written, List.cons_append] at same ⊢
  have other : ∀ {mark : Char}, mark ≠ '-' → mark.isDigit = false → c ≠ mark := by
    rintro mark noSign noDigit rfl
    rcases begins with sign | digit
    · exact noSign sign
    · rw [noDigit] at digit
      cases digit
  rw [readValue, same]
  · rfl
  all_goals
    intros
    rename_i same
    exact absurd (List.cons.inj same).1 (other (by decide) (by decide))

section ReadOn

variable {α : Type} {closing : Char} {more : List Char → Option (List α × List Char)} {first : α}
  {gap : List Char}

theorem readOn_closing (blank : IsGap gap) (printed : isBlank closing = false)
    (other : closing ≠ ',') (later : List Char) :
    readOn closing more first (gap ++ closing :: later) = some ([first], later) := by
  simp only [readOn, skipBlanks_append blank, skipBlanks_cons printed, if_neg other, if_true]

theorem readOn_comma (blank : IsGap gap) {rest later : List Char} {others : List α}
    (read : more rest = some (others, later)) :
    readOn closing more first (gap ++ ',' :: rest) = some (first :: others, later) := by
  simp only [readOn, skipBlanks_append blank, skipBlanks_cons (by decide : isBlank ',' = false),
    if_true, read, Option.map_some]

end ReadOn

theorem readItems_of_read {item : Json} {before cs rest : List Char} {fuel : Nat}
    (opening : IsGap before) (spelled : Spells item cs)
    (read : readValue fuel (cs ++ rest) = some (item, rest)) :
    readItems (fuel + 1) (before ++ (cs ++ rest)) = readOn ']' (readItems fuel) item rest := by
  rw [readItems, spelled.skipBlanks_append opening, read]
  rfl

theorem readMembers_of_read {name : String} {value : Json} {before middle inner cs rest : List Char}
    {fuel : Nat} (opening : IsGap before) (colon : IsGap middle) (behind : IsGap inner)
    (spelled : Spells value cs) (read : readValue fuel (cs ++ rest) = some (value, rest)) :
    readMembers (fuel + 1) (before ++ (quoted name ++ (middle ++ ':' :: (inner ++ (cs ++ rest))))) =
      readOn '\x7d' (readMembers fuel) (name, value) rest := by
  obtain ⟨written, opens, named⟩ := exists_quoted_append name
    (middle ++ ':' :: (inner ++ (cs ++ rest)))
  rw [readMembers, skipBlanks_append opening, opens,
    skipBlanks_cons (by decide : isBlank '\x22' = false)]
  simp only [named, Option.bind_eq_bind, Option.bind_some, skipBlanks_append colon,
    skipBlanks_cons (by decide : isBlank ':' = false), spelled.skipBlanks_append behind, read]

mutual

/-- Every spelling of a document is read as the document, if the fuel covers it and it is not run
together with a digit. -/
theorem Spells.read {value : Json} {cs : List Char} (spelled : Spells value cs) (fuel : Nat)
    (enough : cs.length ≤ fuel) {rest : List Char} (apart : Apart rest) :
    readValue fuel (cs ++ rest) = some (value, rest) := by
  have positive : 0 < cs.length := by
    obtain ⟨c, later, rfl, -⟩ := spelled.exists_head
    exact Nat.zero_lt_succ _
  obtain ⟨fuel, rfl⟩ : ∃ less, fuel = less + 1 := ⟨fuel - 1, by omega⟩
  match spelled with
  | .null => rfl
  | .boolTrue => rfl
  | .boolFalse => rfl
  | .int value => exact readValue_toString value fuel apart
  | .text value =>
      obtain ⟨inner, written, same⟩ := exists_quoted_append value rest
      rw [written, readValue, same]
      rfl
  | .emptyList blank =>
      rw [List.append_assoc, List.cons_append, readValue, skipBlanks_append blank]
      rfl
  | .list spells =>
      have items := spells.read fuel (Nat.le_of_succ_le_succ enough) rest
      rw [List.cons_append, readValue]
      split
      case h_1 later same => exact absurd same (spells.skipBlanks_append_ne rest later)
      case h_2 => rw [items]; rfl
  | .emptyObject blank =>
      rw [List.append_assoc, List.cons_append, readValue, skipBlanks_append blank]
      rfl
  | .object spells =>
      have members := spells.read fuel (Nat.le_of_succ_le_succ enough) rest
      rw [List.cons_append, readValue]
      split
      case h_1 later same => exact absurd same (spells.skipBlanks_append_ne rest later)
      case h_2 => rw [members]; rfl

theorem SpellsItems.read {items : List Json} {cs : List Char} (spelled : SpellsItems items cs)
    (fuel : Nat) (enough : cs.length ≤ fuel) (rest : List Char) :
    readItems fuel (cs ++ rest) = some (items, rest) := by
  match spelled with
  | .last before spells after =>
      simp only [List.length_append, List.length_cons] at enough
      obtain ⟨fuel, rfl⟩ : ∃ less, fuel = less + 1 := ⟨fuel - 1, by omega⟩
      have item := spells.read fuel (by omega)
        (Apart.gap_append_cons after (by decide : Char.isDigit ']' = false) rest)
      simp only [List.append_assoc, List.cons_append, List.nil_append]
      rw [readItems_of_read before spells item,
        readOn_closing after (by decide) (by decide) rest]
  | @SpellsItems.cons _ _ _ _ _ tail before spells after others =>
      simp only [List.length_append, List.length_cons] at enough
      obtain ⟨fuel, rfl⟩ : ∃ less, fuel = less + 1 := ⟨fuel - 1, by omega⟩
      have item := spells.read fuel (by omega)
        (Apart.gap_append_cons after (by decide : Char.isDigit ',' = false) (tail ++ rest))
      simp only [List.append_assoc, List.cons_append]
      rw [readItems_of_read before spells item,
        readOn_comma after (others.read fuel (by omega) rest)]

theorem SpellsMembers.read {members : List (String × Json)} {cs : List Char}
    (spelled : SpellsMembers members cs) (fuel : Nat) (enough : cs.length ≤ fuel)
    (rest : List Char) : readMembers fuel (cs ++ rest) = some (members, rest) := by
  match spelled with
  | .last before middle inner spells after =>
      simp only [List.length_append, List.length_cons] at enough
      obtain ⟨fuel, rfl⟩ : ∃ less, fuel = less + 1 := ⟨fuel - 1, by omega⟩
      have value := spells.read fuel (by omega)
        (Apart.gap_append_cons after (by decide : Char.isDigit '\x7d' = false) rest)
      simp only [List.append_assoc, List.cons_append, List.nil_append]
      rw [readMembers_of_read before middle inner spells value,
        readOn_closing after (by decide) (by decide) rest]
  | @SpellsMembers.cons _ _ _ _ _ _ _ _ tail before middle inner spells after others =>
      simp only [List.length_append, List.length_cons] at enough
      obtain ⟨fuel, rfl⟩ : ∃ less, fuel = less + 1 := ⟨fuel - 1, by omega⟩
      have value := spells.read fuel (by omega)
        (Apart.gap_append_cons after (by decide : Char.isDigit ',' = false) (tail ++ rest))
      simp only [List.append_assoc, List.cons_append]
      rw [readMembers_of_read before middle inner spells value,
        readOn_comma after (others.read fuel (by omega) rest)]

end

theorem read?_of_spells {value : Json} {before cs after : List Char} (opening : IsGap before)
    (spelled : Spells value cs) (closing : IsGap after) :
    read? (String.ofList (before ++ (cs ++ after))) = some value := by
  have enough : cs.length ≤ (before ++ (cs ++ after)).length := by
    simp only [List.length_append]
    omega
  have done : skipBlanks after = [] := by
    have skipped := skipBlanks_append closing []
    rwa [List.append_nil] at skipped
  rw [read?, String.toList_ofList, spelled.skipBlanks_append opening,
    spelled.read _ enough (Apart.of_isGap closing)]
  simp [done]

def SpellsMember (member : String × Json) (line : List Char) : Prop :=
  ∃ cs, Spells member.2 cs ∧ line = quoted member.1 ++ ':' :: ' ' :: cs

/-- Spelled items with commas between them, and gaps behind the brackets and the commas. -/
theorem spellsItems_intercalate {first inner outer : List Char} (opening : IsGap first)
    (between : IsGap inner) (closing : IsGap outer) {items : List Json} {lines : List (List Char)}
    (spelled : List.Forall₂ Spells items lines) (nonempty : items ≠ []) :
    SpellsItems items (first ++ ((',' :: inner).intercalate lines ++ (outer ++ [']']))) := by
  induction spelled generalizing first with
  | nil => exact absurd rfl nonempty
  | cons spells others ih =>
      cases others with
      | nil => simpa using SpellsItems.last opening spells closing
      | cons =>
          have later := ih between (List.cons_ne_nil _ _)
          simpa using SpellsItems.cons opening spells IsGap.nil later

theorem spellsMembers_intercalate {first inner outer : List Char} (opening : IsGap first)
    (between : IsGap inner) (closing : IsGap outer) {members : List (String × Json)}
    {lines : List (List Char)} (spelled : List.Forall₂ SpellsMember members lines)
    (nonempty : members ≠ []) :
    SpellsMembers members
      (first ++ ((',' :: inner).intercalate lines ++ (outer ++ ['\x7d']))) := by
  induction spelled generalizing first with
  | nil => exact absurd rfl nonempty
  | cons member others ih =>
      obtain ⟨cs, spells, rfl⟩ := member
      cases others with
      | nil =>
          simpa using SpellsMembers.last opening IsGap.nil IsGap.space spells closing
      | cons =>
          have later := ih between (List.cons_ne_nil _ _)
          simpa using
            SpellsMembers.cons opening IsGap.nil IsGap.space spells IsGap.nil later

mutual

theorem spells_compact : ∀ value : Json, Spells value (compact value).toList
  | null => Spells.null
  | bool true => Spells.boolTrue
  | bool false => Spells.boolFalse
  | int value => Spells.int value
  | text value => toList_quoteText value ▸ Spells.text value
  | list [] => Spells.emptyList IsGap.nil
  | list (item :: items) => by
      have spelled := spellsItems_intercalate IsGap.nil IsGap.space IsGap.nil
        (spells_compactItems (item :: items)) (List.cons_ne_nil _ _)
      simpa [compact] using Spells.list spelled
  | object [] => Spells.emptyObject IsGap.nil
  | object (member :: members) => by
      have spelled := spellsMembers_intercalate IsGap.nil IsGap.space IsGap.nil
        (spells_compactMembers (member :: members)) (List.cons_ne_nil _ _)
      simpa [compact] using Spells.object spelled

theorem spells_compactItems : ∀ items : List Json,
    List.Forall₂ Spells items ((compactItems items).map String.toList)
  | [] => List.Forall₂.nil
  | item :: items => List.Forall₂.cons (spells_compact item) (spells_compactItems items)

theorem spells_compactMembers : ∀ members : List (String × Json),
    List.Forall₂ SpellsMember members ((compactMembers members).map String.toList)
  | [] => List.Forall₂.nil
  | (name, value) :: members => by
      refine List.Forall₂.cons ⟨_, spells_compact value, ?_⟩ (spells_compactMembers members)
      simp

end

def newline (depth : Nat) : List Char := '\n' :: List.replicate (2 * depth) ' '

theorem IsGap.newline (depth : Nat) : IsGap (newline depth) := by
  intro c present
  rcases List.mem_cons.mp present with rfl | present
  · rfl
  · rw [List.eq_of_mem_replicate present]
    rfl

theorem block_nil (depth : Nat) (opening closing : String) :
    block depth opening closing [] = opening ++ closing := rfl

theorem toList_block (depth : Nat) (opening closing : String) {lines : List String}
    (nonempty : lines ≠ []) :
    (block depth opening closing lines).toList = opening.toList ++ (newline (depth + 1) ++
      ((',' :: newline (depth + 1)).intercalate (lines.map String.toList) ++
        (newline depth ++ closing.toList))) := by
  simp [block, nonempty, newline]

mutual

theorem spells_indented (depth : Nat) : ∀ value : Json, Spells value (indented depth value).toList
  | null => by rw [indented]; exact spells_compact null
  | bool value => by rw [indented]; exact spells_compact (bool value)
  | int value => by rw [indented]; exact spells_compact (int value)
  | text value => by rw [indented]; exact spells_compact (text value)
  | list [] => by
      rw [indented, indentedItems, block_nil]
      exact Spells.emptyList IsGap.nil
  | list (item :: items) => by
      have spelled := spellsItems_intercalate (IsGap.newline (depth + 1))
        (IsGap.newline (depth + 1)) (IsGap.newline depth)
        (spells_indentedItems depth (item :: items)) (List.cons_ne_nil _ _)
      rw [indented, toList_block depth "[" "]" (by simp [indentedItems])]
      exact Spells.list spelled
  | object [] => by
      rw [indented, indentedMembers, block_nil]
      exact Spells.emptyObject IsGap.nil
  | object (member :: members) => by
      have spelled := spellsMembers_intercalate (IsGap.newline (depth + 1))
        (IsGap.newline (depth + 1)) (IsGap.newline depth)
        (spells_indentedMembers depth (member :: members)) (List.cons_ne_nil _ _)
      rw [indented, toList_block depth "\x7b" "\x7d" (by simp [indentedMembers])]
      exact Spells.object spelled

theorem spells_indentedItems (depth : Nat) : ∀ items : List Json,
    List.Forall₂ Spells items ((indentedItems depth items).map String.toList)
  | [] => List.Forall₂.nil
  | item :: items =>
      List.Forall₂.cons (spells_indented (depth + 1) item) (spells_indentedItems depth items)

theorem spells_indentedMembers (depth : Nat) : ∀ members : List (String × Json),
    List.Forall₂ SpellsMember members ((indentedMembers depth members).map String.toList)
  | [] => List.Forall₂.nil
  | (name, value) :: members => by
      refine List.Forall₂.cons ⟨_, spells_indented (depth + 1) value, ?_⟩
        (spells_indentedMembers depth members)
      simp

end

theorem read?_compact (value : Json) : read? (value.compact ++ "\n") = some value := by
  have same := read?_of_spells IsGap.nil (spells_compact value) (IsGap.newline 0)
  rwa [List.nil_append, String.ofList_append, String.ofList_toList] at same

theorem read?_indented (value : Json) : read? (value.indented 0 ++ "\n") = some value := by
  have same := read?_of_spells IsGap.nil (spells_indented 0 value) (IsGap.newline 0)
  rwa [List.nil_append, String.ofList_append, String.ofList_toList] at same

end Permits.Json
