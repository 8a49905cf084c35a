import Permits.Proofs.Tree.Layer
import Permits.Proofs.Tree.Run

set_option autoImplicit false

namespace Permits

/-- The places that blocks speak of, statement by statement. -/
def places (blocks : List (List Value)) : List Key :=
  blocks.flatMap fun entries => (entries.filterMap Value.statement?).map Statement.key

theorem places_eq_map (blocks : List (List Value)) :
    places blocks = (blocks.flatten.filterMap Value.statement?).map Statement.key := by
  rw [places, ← List.map_flatMap, List.filterMap_flatten, List.flatMap_def]

theorem places_append (first second : List (List Value)) :
    places (first ++ second) = places first ++ places second := List.flatMap_append

theorem Tree.stable_rooted : Stable Tree.Rooted := fun _ statement _ rooted =>
  rooted.set statement.key statement.effect

namespace Pass

theorem names_read (overwrite : Bool) (pass : Pass) (statement : Statement)
    (rooted : pass.tree.Rooted) (layer : Layer) :
    layer.names (read overwrite pass statement).tree =
      (layer.entered statement.key).foldl enter (layer.names pass.tree) := by
  unfold read
  dsimp only
  split
  · rename_i kept
    exact (foldl_enter_of_subset _ _ (Tree.entered_subset rooted kept.1 layer)).symm
  · exact Tree.names_set rooted statement.key statement.effect layer

theorem names_readAll (overwrite : Bool) (pass : Pass) (statements : List Statement)
    (good : ∀ statement ∈ statements, statement.WellFormed) (rooted : pass.tree.Rooted)
    (layer : Layer) :
    layer.names (readAll overwrite pass statements).tree =
      ((statements.map Statement.key).flatMap layer.entered).foldl enter
        (layer.names pass.tree) := by
  induction statements generalizing pass with
  | nil => rfl
  | cons statement rest ih =>
      rw [List.forall_mem_cons] at good
      have still := Tree.stable_rooted.read overwrite pass statement good.1 rooted
      change layer.names (readAll overwrite (read overwrite pass statement) rest).tree = _
      rw [ih (read overwrite pass statement) good.2 still,
        names_read overwrite pass statement rooted, List.map_cons, List.flatMap_cons,
        List.foldl_append]

end Pass

namespace Builder

theorem names_addBlock (builder : Builder) (entries : List Value) (overwrite : Bool)
    (rooted : builder.tree.Rooted) (layer : Layer) :
    layer.names (builder.addBlock entries overwrite).tree =
      ((places [entries]).flatMap layer.entered).foldl enter (layer.names builder.tree) := by
  rw [places, List.flatMap_singleton]
  exact Pass.names_readAll overwrite ⟨builder.tree, []⟩ _ (Value.wellFormed_of_entries entries)
    rooted layer

theorem names_mergeAll (builder : Builder) (merges : List Merge) (rooted : builder.tree.Rooted)
    (layer : Layer) :
    layer.names (builder.mergeAll merges).tree =
      ((places (merges.map Merge.entries)).flatMap layer.entered).foldl enter
        (layer.names builder.tree) := by
  induction merges generalizing builder with
  | nil => rfl
  | cons merge rest ih =>
      have still := Tree.stable_rooted.addBlock builder merge.entries merge.overwrite rooted
      have later : places ((merge :: rest).map Merge.entries) =
          places [merge.entries] ++ places (rest.map Merge.entries) := places_append [_] _
      rw [mergeAll_cons, ih _ still, names_addBlock builder _ _ rooted, later, List.flatMap_append,
        List.foldl_append]

/-- A fresh build lists every layer in the order of first occurrences. -/
theorem names_build (blocks : List Value) (layer : Layer) :
    layer.names (empty.build blocks).builder.tree =
      ((places (reached blocks)).flatMap layer.entered).eraseDups := by
  have entries : ((reached blocks).mapIdx fun i entries =>
      (⟨entries, decide (0 < empty.applied + i)⟩ : Merge)).map Merge.entries = reached blocks := by
    apply List.ext_getElem?
    intro i
    simp [Function.comp_def]
  have fresh : layer.names empty.tree = [] := by cases layer <;> rfl
  rw [build_builder, names_mergeAll empty _ Tree.rooted_nil layer, entries, fresh,
    eraseDups_eq_foldl]

theorem mem_names_build_iff (blocks : List Value) (app : String) :
    app ∈ Table.names (empty.build blocks).builder.tree ↔
      ∃ key ∈ places (reached blocks), key.app = app := by
  have listed : Table.names (empty.build blocks).builder.tree = _ := names_build blocks .apps
  rw [listed, List.mem_eraseDups, List.mem_flatMap]
  simp only [Layer.entered, List.mem_singleton, eq_comm]

end Builder

end Permits
