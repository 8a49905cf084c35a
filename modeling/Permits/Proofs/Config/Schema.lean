import Permits.Config.Schema

set_option autoImplicit false

namespace Permits

theorem forall_mem_zipIdx_fst {α : Type} (items : List α) (holds : α → Prop) :
    (∀ part ∈ items.zipIdx, holds part.1) ↔ ∀ item ∈ items, holds item := by
  rw [← List.forall_mem_map (P := holds), List.zipIdx_map_fst]

theorem Scalar.sameKey_text_iff {key : Scalar} {name : String} :
    key.sameKey (.text name) = true ↔ key = .text name := by
  cases key with
  | text other =>
      rw [sameKey, beq_iff_eq, compare?, Option.some.injEq, Std.LawfulEqOrd.compare_eq_iff_eq,
        text.injEq]
  | float value =>
      cases size : Magnitude.ofDouble value <;>
        simp [sameKey, compare?, magnitude, size, Magnitude.compare?]
  | _ => simp [sameKey, compare?, magnitude, Magnitude.compare?]

namespace Schema

/-- A field that may be left out, and holds a text or null. -/
def OptionalText (field : Option Value) : Prop :=
  field = none ∨ field = some (.scalar .null) ∨ ∃ text, field = some (.ofText text)

/-- A field that may be left out, and holds a list of parts of some kind. -/
def OptionalList (ok : Value → Prop) (field : Option Value) : Prop :=
  field = none ∨ ∃ items, field = some (.list items) ∧ ∀ item ∈ items, ok item

/-- A field that may be left out, and holds a version that is understood. -/
def OptionalVersion (field : Option Value) : Prop :=
  ∀ value, field = some value → value.plain ∈ Defect.supportedVersions

def IsText (value : Value) : Prop := ∃ text, value = .ofText text

def TextKeys (entries : Entries) : Prop := ∀ entry ∈ entries, ∃ name, entry.1 = .text name

/-- A value that is a block. -/
inductive IsBlock : Value → Prop
  | intro {entries : Entries} (name : OptionalText (field? "name" entries))
      (statements : OptionalList IsText (field? "statements" entries))
      (keys : TextKeys entries) : IsBlock (.map entries)

/-- A mapping that is a configuration. -/
structure IsConfig (entries : Entries) : Prop where
  version : OptionalVersion (field? "version" entries)
  description : OptionalText (field? "description" entries)
  blocks : OptionalList IsBlock (field? "blocks" entries)
  keys : TextKeys entries

theorem textIssues_eq_nil_iff (place : List Step) (value : Value) :
    textIssues place value = [] ↔ IsText value := by
  unfold textIssues IsText Value.ofText
  split
  · simp
  · rename_i other
    simpa using other

theorem optionalTextIssues_eq_nil_iff (place : List Step) (field : Option Value) :
    optionalTextIssues place field = [] ↔ OptionalText field := by
  unfold optionalTextIssues OptionalText
  split
  · simp
  · simp
  · rename_i value notNull
    rw [textIssues_eq_nil_iff, IsText]
    constructor
    · intro text
      obtain ⟨text, rfl⟩ := text
      exact Or.inr (Or.inr ⟨text, rfl⟩)
    · intro allowed
      rcases allowed with absent | null | text
      · cases absent
      · exact absurd (Option.some.inj null) notNull
      · obtain ⟨text, same⟩ := text
        exact ⟨text, Option.some.inj same⟩

theorem versionIssues_eq_nil_iff (field : Option Value) :
    versionIssues field = [] ↔ OptionalVersion field := by
  unfold versionIssues OptionalVersion
  split
  · simp
  · split <;> simp_all

theorem listIssues_eq_nil_iff (place : List Step) (check : List Step → Value → List Issue)
    (ok : Value → Prop) (checks : ∀ place value, check place value = [] ↔ ok value)
    (field : Option Value) :
    listIssues place check field = [] ↔ OptionalList ok field := by
  unfold listIssues OptionalList
  split
  · simp
  · rename_i items
    simp only [List.flatMap_eq_nil_iff, checks, forall_mem_zipIdx_fst, reduceCtorEq,
      Option.some.injEq, Value.list.injEq, false_or, exists_eq_left']
  · rename_i value other
    simpa using fun items same => absurd same (other items)

theorem keyIssues_eq_nil_iff (place : List Step) (entries : Entries) :
    keyIssues place entries = [] ↔ TextKeys entries := by
  rw [keyIssues, List.filterMap_eq_nil_iff, TextKeys]
  apply forall₂_congr
  intro entry _
  obtain ⟨key, value⟩ := entry
  cases key <;> simp

theorem blockIssues_eq_nil_iff (place : List Step) (value : Value) :
    blockIssues place value = [] ↔ IsBlock value := by
  cases value with
  | map entries =>
      rw [blockIssues, List.append_eq_nil_iff, List.append_eq_nil_iff,
        optionalTextIssues_eq_nil_iff, listIssues_eq_nil_iff _ _ IsText textIssues_eq_nil_iff,
        keyIssues_eq_nil_iff]
      constructor
      · intro parts
        obtain ⟨⟨name, statements⟩, keys⟩ := parts
        exact IsBlock.intro name statements keys
      · intro block
        cases block with
        | intro name statements keys => exact ⟨⟨name, statements⟩, keys⟩
  | scalar value => exact ⟨fun nothing => (nomatch nothing), fun block => nomatch block⟩
  | list items => exact ⟨fun nothing => (nomatch nothing), fun block => nomatch block⟩

theorem issues_eq_nil_iff (entries : Entries) : issues entries = [] ↔ IsConfig entries := by
  rw [issues, List.append_eq_nil_iff, List.append_eq_nil_iff, List.append_eq_nil_iff,
    versionIssues_eq_nil_iff, optionalTextIssues_eq_nil_iff,
    listIssues_eq_nil_iff _ _ IsBlock blockIssues_eq_nil_iff, keyIssues_eq_nil_iff]
  constructor
  · intro parts
    obtain ⟨⟨⟨version, description⟩, blocks⟩, keys⟩ := parts
    exact ⟨version, description, blocks, keys⟩
  · intro config
    exact ⟨⟨⟨config.version, config.description⟩, config.blocks⟩, config.keys⟩

end Schema

end Permits
