import Mathlib.Computability.Language
import Permits.Proofs.Statement.Spelling

set_option autoImplicit false

namespace Permits

open scoped Computability

namespace Pattern

/-- The words of a single character of some class. -/
def oneOf (accepted : Char → Prop) : Language Char := {word | ∃ c, accepted c ∧ word = [c]}

def optional (language : Language Char) : Language Char := 1 + language

def repeated (language : Language Char) : Language Char := language * language∗

/-- Colon-led segments, of which only the last must not be empty, or none at all. -/
def path : Language Char :=
  optional ((oneOf (· = ':') * (oneOf IsSegmentCharacter)∗)∗ * oneOf (· = ':') *
    repeated (oneOf IsSegmentCharacter))

def statements : Language Char :=
  optional (oneOf fun c => c = '+' ∨ c = '-') *
    (repeated (oneOf IsLetterOrDigit) + oneOf (· = '*')) * oneOf (· = '@') *
    repeated (oneOf IsLetterOrDigit) * path

variable {accepted : Char → Prop} {word : List Char}

theorem mem_oneOf : word ∈ oneOf accepted ↔ ∃ c, accepted c ∧ word = [c] := Iff.rfl

theorem mem_oneOf_eq (separator : Char) : word ∈ oneOf (· = separator) ↔ word = [separator] := by
  simp [mem_oneOf]

theorem mem_optional (language : Language Char) :
    word ∈ optional language ↔ word = [] ∨ word ∈ language := by
  rw [optional, Language.mem_add, Language.mem_one]

theorem mem_kstar_oneOf : word ∈ (oneOf accepted)∗ ↔ ∀ c ∈ word, accepted c := by
  rw [Language.mem_kstar]
  constructor
  · intro cut
    obtain ⟨pieces, rfl, single⟩ := cut
    intro c present
    obtain ⟨piece, listed, inside⟩ := List.mem_flatten.mp present
    obtain ⟨other, good, rfl⟩ := single piece listed
    rw [List.mem_singleton.mp inside]
    exact good
  · intro all
    refine ⟨word.map fun c => [c], ?_, ?_⟩
    · induction word with
      | nil => rfl
      | cons c rest ih =>
          rw [List.map_cons, List.flatten_cons,
            ← ih fun other present => all other (List.mem_cons_of_mem c present)]
          rfl
    · intro piece listed
      obtain ⟨c, present, rfl⟩ := List.mem_map.mp listed
      exact ⟨c, all c present, rfl⟩

theorem mem_repeated_oneOf :
    word ∈ repeated (oneOf accepted) ↔ word ≠ [] ∧ ∀ c ∈ word, accepted c := by
  rw [repeated, Language.mem_mul]
  constructor
  · intro cut
    obtain ⟨_, ⟨c, good, rfl⟩, rest, others, rfl⟩ := cut
    refine ⟨List.cons_ne_nil c rest, ?_⟩
    rw [List.singleton_append, List.forall_mem_cons]
    exact ⟨good, mem_kstar_oneOf.mp others⟩
  · intro all
    obtain ⟨c, rest, rfl⟩ := List.exists_cons_of_ne_nil all.1
    have both := List.forall_mem_cons.mp all.2
    exact ⟨[c], ⟨c, both.1, rfl⟩, rest, mem_kstar_oneOf.mpr both.2, rfl⟩

theorem mem_kstar_segment :
    word ∈ (oneOf (· = ':') * (oneOf accepted)∗)∗ ↔ ∃ segments : List (List Char),
      word = segments.flatMap (':' :: ·) ∧ ∀ segment ∈ segments, ∀ c ∈ segment, accepted c := by
  have one : ∀ piece, piece ∈ oneOf (· = ':') * (oneOf accepted)∗ ↔
      ∃ segment, piece = ':' :: segment ∧ ∀ c ∈ segment, accepted c := by
    intro piece
    rw [Language.mem_mul]
    constructor
    · intro cut
      obtain ⟨colon, isColon, segment, all, rfl⟩ := cut
      rw [mem_oneOf_eq] at isColon
      exact ⟨segment, by rw [isColon]; rfl, mem_kstar_oneOf.mp all⟩
    · intro led
      obtain ⟨segment, rfl, all⟩ := led
      exact ⟨[':'], (mem_oneOf_eq ':').mpr rfl, segment, mem_kstar_oneOf.mpr all, rfl⟩
  rw [Language.mem_kstar]
  constructor
  · intro cut
    obtain ⟨pieces, rfl, led⟩ := cut
    induction pieces with
    | nil => exact ⟨[], rfl, fun _ present => nomatch present⟩
    | cons piece rest ih =>
        rw [List.forall_mem_cons] at led
        obtain ⟨segment, rfl, all⟩ := (one piece).mp led.1
        obtain ⟨segments, whole, others⟩ := ih led.2
        refine ⟨segment :: segments, ?_, List.forall_mem_cons.mpr ⟨all, others⟩⟩
        rw [List.flatten_cons, whole, List.flatMap_cons]
  · intro led
    obtain ⟨segments, rfl, all⟩ := led
    refine ⟨segments.map (':' :: ·), List.flatMap_def, ?_⟩
    intro piece listed
    obtain ⟨segment, present, rfl⟩ := List.mem_map.mp listed
    exact (one _).mpr ⟨segment, rfl, all segment present⟩

theorem mem_path_iff :
    word ∈ path ↔ ∃ segments : List (List Char), word = segments.flatMap (':' :: ·) ∧
      (∀ segment ∈ segments, ∀ c ∈ segment, IsSegmentCharacter c) ∧
      segments.getLast? ≠ some [] := by
  rw [path, mem_optional]
  constructor
  · intro either
    rcases either with root | deeper
    · exact ⟨[], root, fun _ present => (nomatch present), by simp⟩
    · rw [Language.mem_mul] at deeper
      obtain ⟨front, inFront, last, inLast, rfl⟩ := deeper
      rw [Language.mem_mul] at inFront
      obtain ⟨before, inBefore, colon, isColon, rfl⟩ := inFront
      obtain ⟨segments, rfl, all⟩ := mem_kstar_segment.mp inBefore
      rw [mem_oneOf_eq] at isColon
      rw [mem_repeated_oneOf] at inLast
      refine ⟨segments ++ [last], by simp [isColon], ?_, by simpa using inLast.1⟩
      rw [List.forall_mem_append, List.forall_mem_singleton]
      exact ⟨all, inLast.2⟩
  · intro led
    obtain ⟨segments, rfl, all, filled⟩ := led
    rcases List.eq_nil_or_concat segments with root | ⟨before, last, cut⟩
    · left
      rw [root, List.flatMap_nil]
    · right
      -- The colon of the last segment is matched on its own, the ones before by the repetition.
      rw [List.concat_eq_append] at cut
      subst cut
      rw [List.forall_mem_append, List.forall_mem_singleton] at all
      have nonempty : last ≠ [] := by simpa using filled
      have front : before.flatMap (':' :: ·) ++ [':'] ∈
          (oneOf (· = ':') * (oneOf IsSegmentCharacter)∗)∗ * oneOf (· = ':') :=
        Language.append_mem_mul (mem_kstar_segment.mpr ⟨before, rfl, all.1⟩)
          ((mem_oneOf_eq ':').mpr rfl)
      have whole := Language.append_mem_mul front (mem_repeated_oneOf.mpr ⟨nonempty, all.2⟩)
      simpa using whole

theorem mem_statements_iff :
    word ∈ statements ↔ ∃ sign permission app tail : List Char,
      word = sign ++ permission ++ ['@'] ++ app ++ tail ∧
      (sign = [] ∨ sign = ['+'] ∨ sign = ['-']) ∧
      (permission = ['*'] ∨ permission ≠ [] ∧ ∀ c ∈ permission, IsLetterOrDigit c) ∧
      (app ≠ [] ∧ ∀ c ∈ app, IsLetterOrDigit c) ∧ tail ∈ path := by
  have signs : ∀ sign, sign ∈ optional (oneOf fun c => c = '+' ∨ c = '-') ↔
      sign = [] ∨ sign = ['+'] ∨ sign = ['-'] := by
    intro sign
    simp only [mem_optional, mem_oneOf, or_and_right, exists_or, exists_eq_left]
  have permissions : ∀ permission,
      permission ∈ repeated (oneOf IsLetterOrDigit) + oneOf (· = '*') ↔
        permission = ['*'] ∨ permission ≠ [] ∧ ∀ c ∈ permission, IsLetterOrDigit c := by
    intro permission
    rw [Language.mem_add, mem_repeated_oneOf, mem_oneOf_eq, or_comm]
  simp only [statements, Language.mem_mul]
  constructor
  · intro cut
    obtain ⟨_, ⟨_, ⟨_, ⟨sign, isSign, permission, isPermission, rfl⟩, at', isAt, rfl⟩, app, isApp,
      rfl⟩, tail, isPath, rfl⟩ := cut
    rw [mem_oneOf_eq] at isAt
    exact ⟨sign, permission, app, tail, by rw [isAt], (signs sign).mp isSign,
      (permissions permission).mp isPermission, mem_repeated_oneOf.mp isApp, isPath⟩
  · intro led
    obtain ⟨sign, permission, app, tail, rfl, isSign, isPermission, isApp, isPath⟩ := led
    exact ⟨_, ⟨_, ⟨_, ⟨sign, (signs sign).mpr isSign, permission,
      (permissions permission).mpr isPermission, rfl⟩, ['@'], (mem_oneOf_eq '@').mpr rfl, rfl⟩, app,
      mem_repeated_oneOf.mpr isApp, rfl⟩, tail, isPath, rfl⟩

end Pattern

namespace Spelling

variable {text : String}

theorem toList_text (spelling : Spelling) :
    spelling.text.toList = spelling.sign.toList ++ spelling.permission.toList ++ ['@'] ++
      spelling.app.toList ++ (spelling.segments.map String.toList).flatMap (':' :: ·) := by
  have join : ∀ segments : List String, (String.join (segments.map (":" ++ ·))).toList =
      (segments.map String.toList).flatMap (':' :: ·) := by
    intro segments
    induction segments with
    | nil => rfl
    | cons segment rest ih =>
        simp only [List.map_cons, String.join_cons, String.toList_append, ih, List.flatMap_cons]
        rfl
  simp only [text, String.toList_append, join]
  rfl

theorem mem_statements_iff_exists_spells :
    text.toList ∈ Pattern.statements ↔ ∃ spelling : Spelling, spelling.Spells text := by
  rw [Pattern.mem_statements_iff]
  constructor
  · intro cut
    obtain ⟨sign, permission, app, tail, whole, isSign, isPermission, isApp, isPath⟩ := cut
    obtain ⟨segments, led, all, last⟩ := Pattern.mem_path_iff.mp isPath
    refine ⟨⟨String.ofList sign, String.ofList permission, String.ofList app,
      segments.map String.ofList⟩, ?_, ?_, ?_, ?_, ?_, ?_⟩
    · rcases isSign with rfl | rfl | rfl
      · exact Or.inl rfl
      · exact Or.inr (Or.inl rfl)
      · exact Or.inr (Or.inr rfl)
    · rw [isWord_iff_toList, String.toList_ofList]
      rcases isPermission with rfl | word
      · exact Or.inl rfl
      · exact Or.inr word
    · rw [isWord_iff_toList, String.toList_ofList]
      exact isApp
    · intro segment present
      obtain ⟨piece, listed, rfl⟩ := List.mem_map.mp present
      rw [String.toList_ofList]
      exact all piece listed
    · intro empty
      rw [List.getLast?_map, Option.map_eq_some_iff] at empty
      obtain ⟨piece, isLast, blank⟩ := empty
      rw [String.ofList_eq_empty_iff] at blank
      exact last (blank ▸ isLast)
    · apply String.toList_injective
      rw [whole, toList_text, led]
      simp [Function.comp_def]
  · intro spelled
    obtain ⟨spelling, spells⟩ := spelled
    refine ⟨spelling.sign.toList, spelling.permission.toList, spelling.app.toList, _,
      by rw [spells.text, toList_text], ?_, ?_, (isWord_iff_toList _).mp spells.app, ?_⟩
    · rcases spells.sign with none | plus | minus
      · exact Or.inl (by rw [none]; rfl)
      · exact Or.inr (Or.inl (by rw [plus]; rfl))
      · exact Or.inr (Or.inr (by rw [minus]; rfl))
    · rcases spells.permission with star | word
      · exact Or.inl (by rw [star]; rfl)
      · exact Or.inr ((isWord_iff_toList _).mp word)
    · refine Pattern.mem_path_iff.mpr ⟨spelling.segments.map String.toList, rfl, ?_, ?_⟩
      · intro piece listed
        obtain ⟨segment, present, rfl⟩ := List.mem_map.mp listed
        exact spells.segments segment present
      · intro empty
        rw [List.getLast?_map, Option.map_eq_some_iff] at empty
        obtain ⟨segment, isLast, blank⟩ := empty
        rw [String.toList_eq_nil_iff] at blank
        exact spells.last (blank ▸ isLast)

/-- The reader, the pattern and the splitter agree on every text. The reader accepts what has a
spelling and what the pattern matches. A spelling is then the only one, and splitting gives its
parts, a denial exactly for a minus. Splitting fails on everything else. -/
theorem isStatement_iff_spells (text : String) :
    (isStatement text = true ↔ ∃ spelling : Spelling, spelling.Spells text) ∧
      (isStatement text = true ↔ text.toList ∈ Pattern.statements) ∧
      (∀ spelling other : Spelling, spelling.Spells text → other.Spells text →
        spelling = other) ∧
      (∀ spelling : Spelling, spelling.Spells text → Statement.parse? text =
        some ⟨if spelling.sign = "-" then .deny else .grant, spelling.permission, spelling.app,
          spelling.segments⟩) ∧
      (Statement.parse? text = none ↔ isStatement text = false) := by
  refine ⟨isStatement_iff_exists_spells, ?_, ?_, ?_, ?_⟩
  · rw [isStatement_iff_exists_spells, mem_statements_iff_exists_spells]
  · intro spelling other spells again
    exact spells.unique again
  · intro spelling spells
    exact spells.parse?
  · rw [← Statement.isSome_parse?, Option.isSome_eq_false_iff, Option.isNone_iff_eq_none]

/-- A denial with an open segment has its one spelling. -/
theorem isStatement_iff_spells_open_segment :
    let spelling : Spelling := ⟨"-", "*", "projects", ["", "files"]⟩
    spelling.Spells "-*@projects::files" ∧
      Statement.parse? "-*@projects::files" = some ⟨.deny, "*", "projects", ["", "files"]⟩ := by
  intro spelling
  have good : spelling.statement.WellFormed :=
    ⟨by decide, by decide, ⟨by decide, by decide⟩⟩
  have spells : spelling.Spells "-*@projects::files" := spells_iff.mpr ⟨good, Or.inl rfl, rfl⟩
  exact ⟨spells, (isStatement_iff_spells _).2.2.2.1 spelling spells⟩

end Spelling

end Permits
