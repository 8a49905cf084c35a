import Mathlib.Data.List.Basic
import Permits.Proofs.Config.Schema
import Permits.Tree.Builder

set_option autoImplicit false

namespace Permits

namespace Schema

/-- Changes the value of an entry if it stands under a given text key. -/
def changeEntry (name : String) (change : Value → Value) : Scalar × Value → Scalar × Value
  | (.text other, value) => (.text other, if other = name then change value else value)
  | entry => entry

def changeField (name : String) (change : Value → Value) (entries : Entries) : Entries :=
  entries.map (changeEntry name change)

variable {entries : Entries} {name : String} {change : Value → Value}

theorem changeEntry_fst (entry : Scalar × Value) :
    (changeEntry name change entry).1 = entry.1 := by
  obtain ⟨key, value⟩ := entry
  cases key <;> rfl

theorem keys_changeField (name : String) (change : Value → Value) (entries : Entries) :
    (changeField name change entries).map Prod.fst = entries.map Prod.fst := by
  rw [changeField, List.map_map]
  apply List.map_congr_left
  intro entry _
  exact changeEntry_fst entry

theorem TextKeys.changeField (keys : TextKeys entries) :
    TextKeys (Schema.changeField name change entries) := by
  intro changed present
  obtain ⟨entry, listed, rfl⟩ := List.mem_map.mp present
  rw [changeEntry_fst]
  exact keys entry listed

/-- Looking up a field finds the changed value under the changed key, and else what was there. -/
theorem field?_changeField (other : String) (entries : Entries) :
    field? other (changeField name change entries) =
      if other = name then (field? other entries).map change else field? other entries := by
  have sameKeys : (fun entry : Scalar × Value => entry.1.sameKey (.text other)) ∘
      changeEntry name change = fun entry => entry.1.sameKey (.text other) := by
    funext entry
    rw [Function.comp_apply, changeEntry_fst]
  rw [field?, field?, Value.lookup?, Value.lookup?, changeField, List.find?_map, sameKeys]
  cases found : entries.find? fun entry => entry.1.sameKey (.text other) with
  | none => simp
  | some entry =>
      obtain ⟨key, value⟩ := entry
      have same : key.sameKey (.text other) = true := by simpa using List.find?_some found
      obtain rfl := Scalar.sameKey_text_iff.mp same
      by_cases here : other = name <;> simp [changeEntry, here]

theorem field?_changeField_self :
    field? name (changeField name change entries) = (field? name entries).map change := by
  rw [field?_changeField, if_pos rfl]

theorem field?_changeField_of_ne {other : String} (different : other ≠ name) :
    field? other (changeField name change entries) = field? other entries := by
  rw [field?_changeField, if_neg different]

theorem extras_changeField {fields : List String} (isField : name ∈ fields) (entries : Entries) :
    extras fields (changeField name change entries) = extras fields entries := by
  rw [extras, extras, changeField, List.filterMap_map]
  apply List.filterMap_congr
  intro entry _
  obtain ⟨key, value⟩ := entry
  cases key with
  | text other =>
      by_cases here : other = name
      · simp [changeEntry, here, isField]
      · simp [changeEntry, here]
  | _ => rfl

def changeItems (change : List Value → List Value) : Value → Value
  | .list items => .list (change items)
  | other => other

theorem itemsOf_changeItems (change : List Value → List Value) (nothing : change [] = [])
    (field : Option Value) :
    itemsOf (field.map (changeItems change)) = change (itemsOf field) := by
  cases field with
  | none => exact nothing.symm
  | some value =>
      cases value with
      | list items => rfl
      | scalar value => exact nothing.symm
      | map entries => exact nothing.symm

theorem OptionalList.changeItems {ok : Value → Prop} {field : Option Value}
    {change : List Value → List Value} (list : OptionalList ok field)
    (kept : ∀ items, (∀ item ∈ items, ok item) → ∀ item ∈ change items, ok item) :
    OptionalList ok (field.map (Schema.changeItems change)) := by
  rcases list with absent | listed
  · left
    rw [absent]
    rfl
  · right
    obtain ⟨items, present, good⟩ := listed
    exact ⟨change items, by rw [present]; rfl, kept items good⟩

end Schema

open Schema

/-- A block value without the statements that are none. -/
def Value.prunedBlock : Value → Value
  | .map entries => .map (changeField "statements"
      (changeItems (List.filter fun item => item.statement?.isSome)) entries)
  | other => other

/-- A configuration value without the statements that are none. -/
def Value.pruned : Value → Value
  | .map entries => .map (changeField "blocks" (changeItems (List.map Value.prunedBlock)) entries)
  | other => other

def BlockConfig.pruned (block : BlockConfig) : BlockConfig :=
  { block with statements := block.statements.filter isStatement }

def Config.pruned (config : Config) : Config :=
  { config with blocks := config.blocks.map BlockConfig.pruned }

namespace Schema

theorem filterMap_textOf?_filter (items : List Value) :
    (items.filter fun item => item.statement?.isSome).filterMap textOf? =
      (items.filterMap textOf?).filter isStatement := by
  induction items with
  | nil => rfl
  | cons item rest ih =>
      cases text : textOf? item with
      | none =>
          have silent : item.statement? = none := by
            unfold Value.statement?
            split
            · cases text
            · rfl
          simp [text, silent, ih]
      | some text' =>
          have isText : item = .ofText text' := by
            unfold textOf? at text
            split at text
            · rw [Option.some.inj text]
              rfl
            · cases text
          subst isText
          have read : (Value.ofText text').statement?.isSome = isStatement text' :=
            Statement.isSome_parse? text'
          by_cases good : isStatement text' = true
          · simp [read, good, text, ih]
          · simp [read, good, text, ih]

theorem isBlock_prunedBlock {value : Value} (block : IsBlock value) :
    IsBlock value.prunedBlock := by
  cases block with
  | @intro entries name statements keys =>
      rw [Value.prunedBlock]
      refine IsBlock.intro ?_ ?_ keys.changeField
      · rw [field?_changeField_of_ne (by decide)]
        exact name
      · rw [field?_changeField_self]
        apply statements.changeItems
        intro items texts item kept
        exact texts item (List.mem_of_mem_filter kept)

theorem readBlock_prunedBlock (value : Value) :
    readBlock value.prunedBlock = (readBlock value).pruned := by
  cases value with
  | map entries =>
      simp only [Value.prunedBlock, readBlock, BlockConfig.pruned, field?_changeField_self,
        field?_changeField_of_ne (by decide : "name" ≠ "statements"),
        itemsOf_changeItems _ List.filter_nil, filterMap_textOf?_filter,
        extras_changeField (by decide : "statements" ∈ blockFields)]
  | scalar value => rfl
  | list items => rfl

theorem IsConfig.pruned {entries : Entries} (config : IsConfig entries) :
    IsConfig (changeField "blocks" (changeItems (List.map Value.prunedBlock)) entries) where
  version := by
    rw [field?_changeField_of_ne (by decide)]
    exact config.version
  description := by
    rw [field?_changeField_of_ne (by decide)]
    exact config.description
  blocks := by
    rw [field?_changeField_self]
    apply config.blocks.changeItems
    intro items blocks item present
    obtain ⟨block, listed, rfl⟩ := List.mem_map.mp present
    exact isBlock_prunedBlock (blocks block listed)
  keys := config.keys.changeField

theorem read_pruned (entries : Entries) :
    read (changeField "blocks" (changeItems (List.map Value.prunedBlock)) entries) =
      (read entries).pruned := by
  simp only [read, Config.pruned, field?_changeField_self,
    field?_changeField_of_ne (by decide : "version" ≠ "blocks"),
    field?_changeField_of_ne (by decide : "description" ≠ "blocks"),
    itemsOf_changeItems _ List.map_nil, List.map_map,
    extras_changeField (by decide : "blocks" ∈ configFields)]
  congr 1
  apply List.map_congr_left
  intro block _
  exact readBlock_prunedBlock block

end Schema

end Permits
