import Permits.Decision.Foreign
import Permits.Decision.Basic
import Permits.Proofs.Tree.Compaction

set_option autoImplicit false

namespace Permits

/-- The canonical texts of the statements among some entries. -/
def canonicalTexts (entries : List Value) : List String :=
  (entries.filterMap Value.statement?).map Statement.text

/-- A block in normal form, if it has any statement. What cannot be read stays as it is. -/
def normalBlock? (block : Value) : Option Value :=
  match block.parts? with
  | none => some block
  | some entries =>
      match canonicalTexts entries with
      | [] => none
      | first :: rest => some (.list ((first :: rest).map .ofText))

/-- Blocks in normal form. Those that hold no statement are left out. -/
def normalBlocks (blocks : List Value) : List Value := blocks.filterMap normalBlock?

theorem filterMap_canonicalTexts (entries : List Value) :
    ((canonicalTexts entries).map Value.ofText).filterMap Value.statement? =
      entries.filterMap Value.statement? := by
  rw [canonicalTexts, List.map_map, List.filterMap_map]
  conv_rhs => rw [← List.map_id (entries.filterMap Value.statement?)]
  apply List.filterMap_eq_map_iff_forall_eq_some.mpr
  intro statement present
  exact Statement.parse?_text (Value.wellFormed_of_entries entries statement present)

/-- What happens to one block: it stays if it cannot be read, it goes if it has no statement, and
otherwise the same statements stand in its place. -/
theorem normalBlocks_cons (block : Value) (rest : List Value) :
    (block.parts? = none ∧ normalBlocks (block :: rest) = block :: normalBlocks rest) ∨
      ∃ entries, block.parts? = some entries ∧
        ((entries.filterMap Value.statement? = [] ∧
            normalBlocks (block :: rest) = normalBlocks rest) ∨
          ∃ kept : List Value,
            kept.filterMap Value.statement? = entries.filterMap Value.statement? ∧
              normalBlocks (block :: rest) = .list kept :: normalBlocks rest) := by
  cases parts : block.parts? with
  | none =>
      have form : normalBlock? block = some block := by simp only [normalBlock?, parts]
      exact Or.inl ⟨rfl, List.filterMap_cons_some form⟩
  | some entries =>
      refine Or.inr ⟨entries, rfl, ?_⟩
      cases texts : canonicalTexts entries with
      | nil =>
          have form : normalBlock? block = none := by simp only [normalBlock?, parts, texts]
          exact Or.inl ⟨List.map_eq_nil_iff.mp texts, List.filterMap_cons_none form⟩
      | cons first others =>
          have form : normalBlock? block = some (.list ((canonicalTexts entries).map .ofText)) := by
            simp only [normalBlock?, parts, texts]
          exact Or.inr ⟨_, filterMap_canonicalTexts entries, List.filterMap_cons_some form⟩

theorem readable_normalBlocks_iff (blocks : List Value) :
    Readable (normalBlocks blocks) ↔ Readable blocks := by
  induction blocks with
  | nil => rfl
  | cons block rest ih =>
      rcases normalBlocks_cons block rest with ⟨parts, form⟩ | ⟨entries, parts, cases⟩
      · simp [form, Readable, parts]
      · rcases cases with ⟨-, form⟩ | ⟨kept, -, form⟩
        · simpa [form, Readable, parts] using ih
        · simpa [form, Readable, parts] using ih

theorem places_normalBlocks (blocks : List Value) :
    places (reached (normalBlocks blocks)) = places (reached blocks) := by
  induction blocks with
  | nil => rfl
  | cons block rest ih =>
      rcases normalBlocks_cons block rest with ⟨parts, form⟩ | ⟨entries, parts, cases⟩
      · simp [form, reached, parts]
      · rcases cases with ⟨silent, form⟩ | ⟨kept, same, form⟩
        · simpa [form, reached, parts, places, silent] using ih
        · simpa [form, reached, parts, places, same] using ih

theorem lastVerdict?_normalBlocks (key : Key) (blocks : List Value) :
    lastVerdict? key (reached (normalBlocks blocks)) = lastVerdict? key (reached blocks) := by
  induction blocks with
  | nil => rfl
  | cons block rest ih =>
      rcases normalBlocks_cons block rest with ⟨parts, form⟩ | ⟨entries, parts, cases⟩
      · simp [form, reached, parts]
      · rcases cases with ⟨silent, form⟩ | ⟨kept, same, form⟩
        · simp [form, reached, parts, lastVerdict?, silent, verdict?, ih]
        · simp [form, reached, parts, lastVerdict?, same, ih]

namespace Builder

theorem build_normalBlocks (blocks : List Value) :
    (empty.build (normalBlocks blocks)).builder.tree = (empty.build blocks).builder.tree := by
  apply (Tree.wellFormed_build _).ext
  · intro layer
    rw [names_build, names_build, places_normalBlocks]
  · intro key
    rw [effect?_build, effect?_build, lastVerdict?_normalBlocks]

end Builder

namespace Statement

/-- A valid text without a sign can be given either sign. Only the effect tells the three apart. -/
theorem parse?_signed {text : String} (valid : isStatement text = true)
    (plus : text.toList.head? ≠ some '+') (minus : text.toList.head? ≠ some '-') :
    ∃ statement, parse? text = some statement ∧ parse? ("+" ++ text) = some statement ∧
      parse? ("-" ++ text) = some { statement with effect := .deny } := by
  rw [← isSome_parse?, Option.isSome_iff_exists] at valid
  obtain ⟨statement, read⟩ := valid
  obtain ⟨good, sign, signs, whole⟩ := exists_sign_of_parse? read
  rcases signs with own | ⟨grant, none⟩
  · exfalso
    rw [whole, own] at plus minus
    cases effect : statement.effect <;> simp [effect, Effect.sign] at plus minus
  · rw [none, String.empty_append] at whole
    refine ⟨statement, read, ?_, ?_⟩
    · rw [whole]
      exact good.parse?_append (Or.inl (by rw [grant]; rfl))
    · have denying : WellFormed { statement with effect := .deny } :=
        ⟨good.permission, good.app, good.path⟩
      rw [whole]
      exact denying.parse?_append (Or.inl rfl)

end Statement

namespace Builder

/-- Normal forms. Blocks and their normal form make the same tree, in the same order, and stop
alike. A tree, whether a builder made it or a host, decides a valid request without a sign like the
same request with a plus or a minus in front. -/
theorem buildValue_normalBlocks (blocks : List Value) :
    ((empty.buildValue (.list (normalBlocks blocks))).builder.tree =
        (empty.buildValue (.list blocks)).builder.tree ∧
      (empty.buildValue (.list (normalBlocks blocks))).fault =
        (empty.buildValue (.list blocks)).fault) ∧
    ∀ text, isStatement text = true → text.toList.head? ≠ some '+' →
      text.toList.head? ≠ some '-' →
      (∀ tree : Tree, tree.authorize (.ofText ("+" ++ text)) = tree.authorize (.ofText text) ∧
        tree.authorize (.ofText ("-" ++ text)) = tree.authorize (.ofText text)) ∧
      (∀ tree : ForeignTree,
        tree.authorize (.ofText ("+" ++ text)) = tree.authorize (.ofText text) ∧
        tree.authorize (.ofText ("-" ++ text)) = tree.authorize (.ofText text)) := by
  simp only [buildValue_list]
  refine ⟨⟨build_normalBlocks blocks, ?_⟩, ?_⟩
  · exact build_fault_congr_of_readable empty (readable_normalBlocks_iff blocks)
  · intro text valid plus minus
    obtain ⟨statement, bare, granting, denying⟩ := Statement.parse?_signed valid plus minus
    have own : (Value.ofText text).statement? = some statement := bare
    have plain : (Value.ofText ("+" ++ text)).statement? = some statement := granting
    have turned : (Value.ofText ("-" ++ text)).statement? =
        some { statement with effect := .deny } := denying
    -- Deciding never looks at the effect of the request.
    refine ⟨fun tree => ?_, fun tree => ?_⟩
    · simp only [Tree.authorize, own, plain, turned, true_and]
      rfl
    · simp only [ForeignTree.authorize, own, plain, turned, true_and]
      rfl

/-- A block without statements goes, so that the block behind it comes first; a number and a
malformed text go from the other one. The tree that is left decides a signed request as before. -/
theorem buildValue_normalBlocks_first_dropped :
    let blocks : List Value := [.list [.ofText "read docs", .scalar .null],
      .list [.ofText "-read@docs", .scalar (.int 7), .ofText "read@docs:a"]]
    let tree := (empty.buildValue (.list blocks)).builder.tree
    isStatement "read@docs:a:b" = true ∧ "read@docs:a:b".toList.head? ≠ some '+' ∧
      "read@docs:a:b".toList.head? ≠ some '-' ∧ (normalBlocks blocks).length = 1 ∧
      (empty.buildValue (.list (normalBlocks blocks))).builder.tree = tree ∧
      tree.authorize (.ofText ("-" ++ "read@docs:a:b")) =
        tree.authorize (.ofText "read@docs:a:b") ∧
      (tree.authorize (.ofText "read@docs:a:b")).authorized = true := by
  intro blocks tree
  have valid : isStatement "read@docs:a:b" = true := by decide
  have plus : "read@docs:a:b".toList.head? ≠ some '+' := by decide
  have minus : "read@docs:a:b".toList.head? ≠ some '-' := by decide
  obtain ⟨same, requests⟩ := buildValue_normalBlocks blocks
  exact ⟨valid, plus, minus, by decide, same.1, ((requests _ valid plus minus).1 tree).2,
    by decide⟩

end Builder

end Permits
