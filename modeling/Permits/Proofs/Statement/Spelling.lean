import Permits.Proofs.Statement.Reading

set_option autoImplicit false

namespace Permits

def IsLetterOrDigit (c : Char) : Prop :=
  'A' ≤ c ∧ c ≤ 'Z' ∨ 'a' ≤ c ∧ c ≤ 'z' ∨ '0' ≤ c ∧ c ≤ '9'

def IsSegmentCharacter (c : Char) : Prop := IsLetterOrDigit c ∨ c = '_' ∨ c = '/' ∨ c = '-'

/-- A text of ASCII letters and digits that is not empty. -/
def IsWord (text : String) : Prop := text ≠ "" ∧ ∀ c ∈ text.toList, IsLetterOrDigit c

theorem isWord_iff_toList (text : String) :
    IsWord text ↔ text.toList ≠ [] ∧ ∀ c ∈ text.toList, IsLetterOrDigit c := by
  rw [IsWord, Ne, Ne, String.toList_eq_nil_iff]

theorem isAlphanum_iff (c : Char) : c.isAlphanum = true ↔ IsLetterOrDigit c := by
  have ranges : c.isAlphanum = (decide ('A' ≤ c ∧ c ≤ 'Z') ||
      decide ('a' ≤ c) && decide (c ≤ 'z') || decide ('0' ≤ c) && decide (c ≤ '9')) := rfl
  rw [ranges, IsLetterOrDigit]
  simp only [Bool.or_eq_true, Bool.and_eq_true, decide_eq_true_eq, or_assoc]

theorem isSegmentChar_iff (c : Char) : isSegmentChar c = true ↔ IsSegmentCharacter c := by
  simp only [isSegmentChar, Bool.or_eq_true, beq_iff_eq, isAlphanum_iff, or_assoc]
  rfl

theorem isName_iff (text : String) : isName text.toList = true ↔ IsWord text := by
  simp only [isWord_iff_toList, isName, Bool.and_eq_true, Bool.not_eq_true',
    List.isEmpty_eq_false_iff, List.all_eq_true, isAlphanum_iff]

instance decidableIsWord (text : String) : Decidable (IsWord text) :=
  decidable_of_iff _ (isName_iff text)

theorem all_isSegmentChar_iff (segments : List String) :
    segments.all (fun segment => segment.toList.all isSegmentChar) = true ↔
      ∀ segment ∈ segments, ∀ c ∈ segment.toList, IsSegmentCharacter c := by
  simp only [List.all_eq_true, isSegmentChar_iff]

instance decidableSegments (segments : List String) :
    Decidable (∀ segment ∈ segments, ∀ c ∈ segment.toList, IsSegmentCharacter c) :=
  decidable_of_iff _ (all_isSegmentChar_iff segments)

theorem isPermission_iff (text : String) :
    isPermission text.toList = true ↔ text = "*" ∨ IsWord text := by
  have star : text.toList = "*".toList ↔ text = "*" := String.toList_inj
  rw [isPermission, Bool.or_eq_true, isName_iff, beq_iff_eq, ← star]
  rfl

theorem Statement.wellFormed_iff (statement : Statement) :
    statement.WellFormed ↔ (statement.permission = "*" ∨ IsWord statement.permission) ∧
      IsWord statement.app ∧
      (∀ segment ∈ statement.segments, ∀ c ∈ segment.toList, IsSegmentCharacter c) ∧
      statement.segments.getLast? ≠ some "" := by
  rw [← isPermission_iff, ← isName_iff, ← all_isSegmentChar_iff, List.all_eq_true]
  constructor
  · intro good
    exact ⟨good.permission, good.app, good.path.chars, good.path.last⟩
  · intro parts
    obtain ⟨permission, app, segments, last⟩ := parts
    exact ⟨permission, app, segments, last⟩

/-- The pieces of a text that spells a statement. -/
structure Spelling where
  sign : String
  permission : String
  app : String
  segments : List String
  deriving DecidableEq

namespace Spelling

def text (spelling : Spelling) : String :=
  spelling.sign ++ spelling.permission ++ "@" ++ spelling.app ++
    String.join (spelling.segments.map (":" ++ ·))

/-- The statement that the pieces spell. Only a minus denies. -/
def statement (spelling : Spelling) : Statement :=
  ⟨if spelling.sign = "-" then .deny else .grant, spelling.permission, spelling.app,
    spelling.segments⟩

/-- Whether the pieces spell a text by the rules of the grammar. -/
structure Spells (spelling : Spelling) (text : String) : Prop where
  sign : spelling.sign = "" ∨ spelling.sign = "+" ∨ spelling.sign = "-"
  permission : spelling.permission = "*" ∨ IsWord spelling.permission
  app : IsWord spelling.app
  segments : ∀ segment ∈ spelling.segments, ∀ c ∈ segment.toList, IsSegmentCharacter c
  last : spelling.segments.getLast? ≠ some ""
  text : text = spelling.text

instance decidableSpells (spelling : Spelling) (text : String) :
    Decidable (spelling.Spells text) :=
  decidable_of_iff
    ((spelling.sign = "" ∨ spelling.sign = "+" ∨ spelling.sign = "-") ∧
      (spelling.permission = "*" ∨ IsWord spelling.permission) ∧ IsWord spelling.app ∧
      (∀ segment ∈ spelling.segments, ∀ c ∈ segment.toList, IsSegmentCharacter c) ∧
      spelling.segments.getLast? ≠ some "" ∧ text = spelling.text)
    ⟨fun ⟨sign, permission, app, segments, last, whole⟩ =>
      ⟨sign, permission, app, segments, last, whole⟩,
      fun spells => ⟨spells.sign, spells.permission, spells.app, spells.segments, spells.last,
        spells.text⟩⟩

theorem joinPath_cons_eq_join (app : String) (segments : List String) :
    joinPath (app :: segments) = app ++ String.join (segments.map (":" ++ ·)) := by
  induction segments generalizing app with
  | nil => simp
  | cons segment rest ih =>
      have step : joinPath (app :: segment :: rest) = app ++ ":" ++ joinPath (segment :: rest) :=
        String.intercalate_cons_of_ne_nil (List.cons_ne_nil _ _)
      rw [step, ih, List.map_cons, String.join_cons]
      simp only [String.append_assoc]

theorem text_eq (spelling : Spelling) :
    spelling.text = spelling.sign ++ spelling.statement.unsigned := by
  rw [Statement.unsigned, joinPath_cons_eq_join]
  simp only [text, statement, String.append_assoc]

variable {spelling other : Spelling} {text : String}

theorem signs_iff :
    spelling.statement.effect.Signs spelling.sign ↔
      spelling.sign = "" ∨ spelling.sign = "+" ∨ spelling.sign = "-" := by
  by_cases minus : spelling.sign = "-"
  · simp [statement, minus, Effect.Signs, Effect.sign]
  · simp [statement, minus, Effect.Signs, Effect.sign, or_comm]

theorem spells_iff :
    spelling.Spells text ↔ spelling.statement.WellFormed ∧
      spelling.statement.effect.Signs spelling.sign ∧
      text = spelling.sign ++ spelling.statement.unsigned := by
  rw [Statement.wellFormed_iff, signs_iff, ← text_eq]
  constructor
  · intro spells
    exact ⟨⟨spells.permission, spells.app, spells.segments, spells.last⟩, spells.sign, spells.text⟩
  · intro written
    obtain ⟨⟨permission, app, segments, last⟩, sign, whole⟩ := written
    exact ⟨sign, permission, app, segments, last, whole⟩

theorem Spells.parse? (spells : spelling.Spells text) :
    Statement.parse? text = some spelling.statement := by
  obtain ⟨good, signs, whole⟩ := spells_iff.mp spells
  exact Statement.parse?_eq_some_iff.mpr ⟨good, spelling.sign, signs, whole⟩

/-- A text has at most one spelling. Reading gives all its pieces but the sign, and the sign is
what is left in front of them. -/
theorem Spells.unique (spells : spelling.Spells text) (again : other.Spells text) :
    spelling = other := by
  have same : spelling.statement = other.statement := by
    have read := spells.parse?
    rw [again.parse?, Option.some.injEq] at read
    exact read.symm
  have sign : spelling.sign = other.sign := by
    have whole := (spells_iff.mp spells).2.2
    rw [(spells_iff.mp again).2.2, same, String.append_left_inj] at whole
    exact whole.symm
  obtain ⟨sign₁, permission₁, app₁, segments₁⟩ := spelling
  obtain ⟨sign₂, permission₂, app₂, segments₂⟩ := other
  simp only [statement, Statement.mk.injEq] at same sign
  rw [sign, same.2.1, same.2.2.1, same.2.2.2]

theorem exists_spells_of_parse? {read : Statement} (parsed : Statement.parse? text = some read) :
    ∃ spelling : Spelling, spelling.Spells text := by
  obtain ⟨good, sign, signs, whole⟩ := Statement.parse?_eq_some_iff.mp parsed
  refine ⟨⟨sign, read.permission, read.app, read.segments⟩, ?_⟩
  have same : Spelling.statement ⟨sign, read.permission, read.app, read.segments⟩ = read := by
    obtain ⟨effect, permission, app, segments⟩ := read
    rcases signs with rfl | ⟨rfl, rfl⟩
    · cases effect <;> rfl
    · rfl
  rw [spells_iff, same]
  exact ⟨good, signs, whole⟩

theorem isStatement_iff_exists_spells :
    isStatement text = true ↔ ∃ spelling : Spelling, spelling.Spells text := by
  rw [← Statement.isSome_parse?, Option.isSome_iff_exists]
  constructor
  · intro reads
    obtain ⟨read, parsed⟩ := reads
    exact exists_spells_of_parse? parsed
  · intro spelled
    obtain ⟨spelling, spells⟩ := spelled
    exact ⟨spelling.statement, spells.parse?⟩

-- A segment can be empty, but not the last one.
example : (⟨"-", "*", "a", ["", "b"]⟩ : Spelling).Spells "-*@a::b" ∧
    ¬ (⟨"-", "*", "a", ["b", ""]⟩ : Spelling).Spells "-*@a:b:" := by decide

end Spelling

namespace Statement

/-- The canonical text of what a text says: the text itself, or with a plus in front of it where it
has no sign. -/
theorem text_of_parse? {text : String} {statement : Statement}
    (read : parse? text = some statement) :
    statement.text = if text.toList.head? = some '+' ∨ text.toList.head? = some '-' then text
      else "+" ++ text := by
  obtain ⟨good, sign, signs, whole⟩ := parse?_eq_some_iff.mp read
  rw [good.text_eq]
  rcases signs with own | ⟨grant, none⟩
  · have signed : text.toList.head? = some '+' ∨ text.toList.head? = some '-' := by
      rw [whole, own]
      cases statement.effect <;> simp [Effect.sign]
    rw [if_pos signed, whole, own]
  · obtain ⟨c, rest, first, plus, minus⟩ := Grammar.exists_cons_of_isPermission good.permission
    have unsigned : ¬ (text.toList.head? = some '+' ∨ text.toList.head? = some '-') := by
      rw [whole, none, String.empty_append, toList_unsigned, first]
      simp [plus, minus]
    rw [if_neg unsigned, whole, none, String.empty_append, grant]
    rfl

/-- Writing and reading. Parts are read back from their canonical text exactly if the permission is
a word or the star, the app is a word, and the segments are made of segment characters, the last
one not being empty. A text that reads is given back by writing, with a plus where it has no
sign. -/
theorem read_written_iff (statement : Statement) (text : String) :
    (parse? statement.text = some statement ↔
        (statement.permission = "*" ∨ IsWord statement.permission) ∧ IsWord statement.app ∧
          (∀ segment ∈ statement.segments, ∀ c ∈ segment.toList, IsSegmentCharacter c) ∧
          (statement.segments = [] ∨ statement.segments.getLast? ≠ some "")) ∧
      (parse? text).map Statement.text =
        if isStatement text = true then
          if text.toList.head? = some '+' ∨ text.toList.head? = some '-' then some text
          else some ("+" ++ text)
        else none := by
  constructor
  · have last : statement.segments = [] ∨ statement.segments.getLast? ≠ some "" ↔
        statement.segments.getLast? ≠ some "" := by
      rw [or_iff_right_iff_imp]
      intro root
      simp [root]
    rw [last, ← wellFormed_iff]
    constructor
    · intro read
      exact wellFormed_of_parse? read
    · intro good
      exact parse?_text good
  · cases read : parse? text with
    | none =>
        have rejected : isStatement text = false := by rw [← isSome_parse?, read]; rfl
        simp [rejected]
    | some statement =>
        have accepted : isStatement text = true := by rw [← isSome_parse?, read]; rfl
        rw [if_pos accepted, Option.map_some, text_of_parse? read, apply_ite some]

end Statement

end Permits
