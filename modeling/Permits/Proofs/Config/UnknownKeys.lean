import Permits.Proofs.Config.Settling

set_option autoImplicit false

namespace Permits

theorem Magnitude.compare?_swap (first second : Magnitude) :
    first.compare? second = (second.compare? first).map Ordering.swap := by
  cases first <;> cases second <;> try rfl
  case exact.exact m e n f =>
      simp only [compare?, Option.map_some, Int.compare_swap]
      rw [Int.min_comm]

namespace Scalar

theorem compare?_swap (first second : Scalar) :
    first.compare? second = (second.compare? first).map Ordering.swap := by
  cases first <;> cases second
  case null.null => rfl
  case text.text | date.date =>
      simp only [compare?, Option.map_some, ← Std.OrientedOrd.eq_swap]
  case moment.moment first second =>
      simp only [compare?]
      by_cases same : first.offset.isSome = second.offset.isSome
      · simp only [same, if_true, Option.map_some, Int.compare_swap]
      · simp only [same, Ne.symm same, if_false, Option.map_none]
  -- all others are compared by their magnitudes, which scalars that are no numbers do not have
  all_goals
    simp only [compare?]
    exact Magnitude.compare?_swap _ _

theorem sameKey_comm (first second : Scalar) : first.sameKey second = second.sameKey first := by
  rw [sameKey, sameKey, compare?_swap]
  cases second.compare? first with
  | none => rfl
  | some order => cases order <;> rfl

/-- Keys as a mapping has them: no two of them are the same. -/
def Distinct (keys : List Scalar) : Prop :=
  keys.Pairwise fun first second => first.sameKey second = false

theorem Distinct.perm {first second : List Scalar} (distinct : Distinct first)
    (same : first.Perm second) : Distinct second :=
  List.Pairwise.perm distinct same fun different => (sameKey_comm _ _).trans different

theorem perm_of_sort? {scalars listed : List Scalar} (ordered : sort? scalars = some listed) :
    listed.Perm scalars := by
  match scalars with
  | [] =>
      obtain rfl := Option.some.inj ordered
      exact .nil
  | [only] =>
      obtain rfl := Option.some.inj ordered
      exact .refl _
  | first :: second :: rest =>
      rw [sort?] at ordered
      · split at ordered
        · obtain rfl := Option.some.inj ordered
          exact List.mergeSort_perm _ _
        · cases ordered
      · exact List.cons_ne_nil _ _

theorem exists_sort?_iff (scalars : List Scalar) :
    (∃ listed, sort? scalars = some listed) ↔ OneFamily scalars := by
  rw [← Option.ne_none_iff_exists', ne_eq, sort?_eq_none_iff, not_not]

end Scalar

namespace Config

variable {entries : Schema.Entries}

theorem mem_unknownKeys_iff (key : Scalar) :
    key ∈ unknownKeys entries ↔ key ∈ topKeys (.map entries) ∧
      key ≠ .text "version" ∧ key ≠ .text "description" ∧ key ≠ .text "blocks" := by
  rw [unknownKeys, List.mem_filter, topKeys]
  apply and_congr_right
  intro _
  cases key with
  | text name =>
      simp only [Schema.configFields, List.mem_cons, List.not_mem_nil, or_false, not_or,
        decide_eq_true_eq, ne_eq, Scalar.text.injEq]
      tauto
  | _ => simp

theorem distinct_unknownKeys (distinct : Scalar.Distinct (topKeys (.map entries))) :
    Scalar.Distinct (unknownKeys entries) :=
  List.Pairwise.filter _ distinct

theorem message_unknownKeys (listed : List Scalar) (source : Option String) :
    ConfigError.message ⟨.unknownKeys listed, source⟩ =
      (namedSource source).elim "" (fun source => "[" ++ source ++ "] ") ++
        ("Unknown top-level keys: [" ++ ", ".intercalate (listed.map Scalar.display) ++
          "]. Known keys: ['blocks', 'description', 'version'].") := by
  have known : Text.quotedList Schema.configFields = "['blocks', 'description', 'version']" := by
    decide +kernel
  have words : Refusal.message (.unknownKeys listed) =
      "Unknown top-level keys: " ++ Text.bracketed "[" "]" (listed.map Scalar.display) ++
        ". Known keys: " ++ Text.quotedList Schema.configFields ++ "." := rfl
  rw [ConfigError.message, words, known, Text.bracketed]
  simp only [String.append_assoc]
  rfl

/-- A strict load of a mapping with unknown keys. It is refused if and only if the unknown keys are
of one family. The refusal carries the source, and its words list the unknown keys, each of them
once. Otherwise the load ends in a fault that is no refusal. -/
theorem load_strict_refused_iff (source : Option String) (unknown : ¬ KnownKeys (.map entries)) :
    ((∃ error, load true source (.map entries) = .error (.refused error)) ↔
        OneFamily (unknownKeys entries)) ∧
      (∀ error, load true source (.map entries) = .error (.refused error) →
        ∃ listed : List Scalar, listed.Perm (unknownKeys entries) ∧
          (∀ key, key ∈ listed ↔ key ∈ topKeys (.map entries) ∧
            key ≠ .text "version" ∧ key ≠ .text "description" ∧ key ≠ .text "blocks") ∧
          (Scalar.Distinct (topKeys (.map entries)) → Scalar.Distinct listed) ∧
          error.source = source ∧
          error.message = (namedSource source).elim "" (fun source => "[" ++ source ++ "] ") ++
            ("Unknown top-level keys: [" ++ ", ".intercalate (listed.map Scalar.display) ++
              "]. Known keys: ['blocks', 'description', 'version'].")) ∧
      (¬ OneFamily (unknownKeys entries) →
        load true source (.map entries) = .error .unorderedKeys) := by
  rw [← unknownKeys_eq_nil_iff] at unknown
  rw [load_strict_map_of_unknown source unknown, ← Scalar.exists_sort?_iff]
  cases order : Scalar.sort? (unknownKeys entries) with
  | none => simp
  | some listed =>
      have same := Scalar.perm_of_sort? order
      refine ⟨by simp, ?_, fun mixed => absurd ⟨listed, rfl⟩ mixed⟩
      intro error refused
      obtain rfl : ConfigError.mk (.unknownKeys listed) source = error := by simpa using refused
      refine ⟨listed, same, ?_, ?_, rfl, message_unknownKeys listed source⟩
      · intro key
        rw [same.mem_iff, mem_unknownKeys_iff]
      · intro distinct
        exact (distinct_unknownKeys distinct).perm same.symm

/-- A number and a truth value are of one family, and both are listed. -/
theorem load_strict_refused_number_and_truth :
    let entries : Schema.Entries :=
      [(.int 7, .scalar .null), (.text "blocks", .list []), (.bool false, .ofText "a")]
    ¬ KnownKeys (.map entries) ∧ OneFamily (unknownKeys entries) ∧
      ∃ error, load true (some "c.yaml") (.map entries) = .error (.refused error) ∧
        ∃ listed : List Scalar, listed.Perm [.int 7, .bool false] ∧
          error.message = "[c.yaml] " ++ ("Unknown top-level keys: [" ++
            ", ".intercalate (listed.map Scalar.display) ++
              "]. Known keys: ['blocks', 'description', 'version'].") := by
  intro entries
  have unknown : ¬ KnownKeys (.map entries) := by
    rw [← unknownKeys_eq_nil_iff]
    exact List.cons_ne_nil _ _
  have family : OneFamily (unknownKeys entries) := by
    rw [← Scalar.exists_sort?_iff]
    exact ⟨_, rfl⟩
  have theorems := load_strict_refused_iff (some "c.yaml") unknown
  obtain ⟨error, refused⟩ := theorems.1.mpr family
  obtain ⟨listed, same, -, -, -, message⟩ := theorems.2.1 error refused
  exact ⟨unknown, family, error, refused, listed, same, message⟩

/-- Of a number and a text no refusal comes. -/
theorem not_refused_of_number_and_text :
    let value : Value := .map [(.int 1, .ofText "a"), (.text "b", .ofText "c")]
    ¬ KnownKeys value ∧ ∀ error, load true none value ≠ .error (.refused error) := by
  intro value
  constructor
  · intro known
    simpa using known (.int 1) List.mem_cons_self
  · intro error refused
    cases refused

end Config

end Permits
