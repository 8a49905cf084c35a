import Permits.Proofs.Statement.Reading
import Permits.Tree.Builder

set_option autoImplicit false

namespace Permits

/-- A call on a builder. -/
inductive Call where
  | add (block : Value) (overwrite : Bool)
  | build (blocks : Value)

/-- One block that went into a tree, and whether it overwrote what it found there. -/
structure Merge where
  entries : List Value
  overwrite : Bool

/-- The blocks that a build gets to: the parts of each value up to the first that has none. -/
def reached : List Value → List (List Value)
  | [] => []
  | block :: rest =>
      match block.parts? with
      | none => []
      | some entries => entries :: reached rest

def Readable (blocks : List Value) : Prop := ∀ block ∈ blocks, block.parts?.isSome = true

theorem readable_append (first second : List Value) :
    Readable (first ++ second) ↔ Readable first ∧ Readable second := List.forall_mem_append

theorem reached_append {first : List Value} (second : List Value) (readable : Readable first) :
    reached (first ++ second) = reached first ++ reached second := by
  induction first with
  | nil => rfl
  | cons block rest ih =>
      rw [Readable, List.forall_mem_cons] at readable
      obtain ⟨entries, parts⟩ := Option.isSome_iff_exists.mp readable.1
      rw [List.cons_append, reached, reached, parts]
      exact congrArg (entries :: ·) (ih readable.2)

theorem reached_append_of_not {first : List Value} (second : List Value)
    (stops : ¬ Readable first) : reached (first ++ second) = reached first := by
  induction first with
  | nil => exact absurd (fun _ member => nomatch member) stops
  | cons block rest ih =>
      rw [List.cons_append, reached, reached]
      cases parts : block.parts? with
      | none => rfl
      | some entries =>
          have later : ¬ Readable rest := fun readable =>
            stops (List.forall_mem_cons.mpr ⟨by rw [parts]; rfl, readable⟩)
          exact congrArg (entries :: ·) (ih later)

namespace Call

/-- The blocks that a call merges into a builder which has merged `applied` blocks before. In a
build only the first block of the builder's life does not overwrite. -/
def merges (applied : Nat) : Call → List Merge
  | add block overwrite => (block.parts?.map (⟨·, overwrite⟩)).toList
  | build blocks => (reached (blocks.parts?.getD [])).mapIdx fun i entries =>
      ⟨entries, decide (0 < applied + i)⟩

/-- The blocks that a list of calls merges, in order. -/
def history (applied : Nat) : List Call → List Merge
  | [] => []
  | call :: rest =>
      call.merges applied ++ history (applied + (call.merges applied).length) rest

end Call

namespace Builder

/-- The state that a call leaves, whether it stops or not. -/
def call (builder : Builder) : Call → Builder
  | .add block overwrite => (builder.add block overwrite).builder
  | .build blocks => (builder.buildValue blocks).builder

/-- The state that a list of calls leaves. -/
def run (builder : Builder) (calls : List Call) : Builder := calls.foldl call builder

def mergeAll (builder : Builder) (merges : List Merge) : Builder :=
  merges.foldl (fun builder merge => builder.addBlock merge.entries merge.overwrite) builder

@[simp] theorem mergeAll_nil (builder : Builder) : builder.mergeAll [] = builder := rfl

@[simp] theorem mergeAll_cons (builder : Builder) (merge : Merge) (rest : List Merge) :
    builder.mergeAll (merge :: rest) =
      (builder.addBlock merge.entries merge.overwrite).mergeAll rest := rfl

theorem mergeAll_append (builder : Builder) (first second : List Merge) :
    builder.mergeAll (first ++ second) = (builder.mergeAll first).mergeAll second :=
  List.foldl_append

theorem mergeAll_applied (builder : Builder) (merges : List Merge) :
    (builder.mergeAll merges).applied = builder.applied + merges.length := by
  induction merges generalizing builder with
  | nil => rfl
  | cons merge rest ih =>
      rw [mergeAll_cons, ih, List.length_cons]
      simp only [addBlock]
      omega

theorem add_builder (builder : Builder) (block : Value) (overwrite : Bool) :
    (builder.add block overwrite).builder =
      builder.mergeAll (Call.merges builder.applied (.add block overwrite)) := by
  rw [add, Call.merges]
  cases block.parts? <;> rfl

theorem build_builder (builder : Builder) (blocks : List Value) :
    (builder.build blocks).builder =
      builder.mergeAll ((reached blocks).mapIdx fun i entries =>
        ⟨entries, decide (0 < builder.applied + i)⟩) := by
  induction blocks generalizing builder with
  | nil => rfl
  | cons block rest ih =>
      rw [build, add, reached]
      cases block.parts? with
      | none => rfl
      | some entries =>
          have later : ∀ i, builder.applied + 1 + i = builder.applied + (i + 1) := by
            intro i
            omega
          simp only [ih, List.mapIdx_cons, mergeAll_cons, addBlock, later, Nat.add_zero]

theorem build_fault_eq_none_iff (builder : Builder) (blocks : List Value) :
    (builder.build blocks).fault = none ↔ Readable blocks := by
  induction blocks generalizing builder with
  | nil => simp [build, Readable]
  | cons block rest ih =>
      rw [build, add, Readable, List.forall_mem_cons]
      cases block.parts? with
      | none => simp
      | some entries => simpa [Readable] using ih (builder.addBlock entries (builder.applied > 0))

theorem build_fault_congr_of_readable {first second : List Value} (builder : Builder)
    (agree : Readable first ↔ Readable second) :
    (builder.build first).fault = (builder.build second).fault := by
  rw [← build_fault_eq_none_iff builder first, ← build_fault_eq_none_iff builder second] at agree
  cases left : (builder.build first).fault with
  | none => exact (agree.mp left).symm
  | some fault =>
      cases right : (builder.build second).fault with
      | none =>
          rw [agree.mpr right] at left
          cases left
      | some other => rfl

theorem buildValue_list (builder : Builder) (blocks : List Value) :
    builder.buildValue (.list blocks) = builder.build blocks := by
  cases blocks <;> rfl

theorem buildValue_of_parts (builder : Builder) {blocks : Value} {parts : List Value}
    (read : blocks.parts? = some parts) : builder.buildValue blocks = builder.build parts := by
  rw [buildValue, read]
  split
  · rename_i nothing
    have empty : parts = [] := by
      cases blocks with
      | scalar value =>
          cases value with
          | text text =>
              have blank : text = "" := by simpa [Value.isEmpty, Scalar.isEmpty] using nothing
              simpa [blank, Value.parts?, eq_comm] using read
          | _ => cases read
      | list items =>
          have none : items = [] := by simpa [Value.isEmpty] using nothing
          simpa [none, Value.parts?, eq_comm] using read
      | map entries =>
          have none : entries = [] := by simpa [Value.isEmpty] using nothing
          simpa [none, Value.parts?, eq_comm] using read
    rw [empty]
    rfl
  · rfl

theorem buildValue_of_none (builder : Builder) {blocks : Value} (noParts : blocks.parts? = none) :
    ∃ fault, builder.buildValue blocks = ⟨builder, [], fault⟩ := by
  rw [buildValue, noParts]
  split <;> exact ⟨_, rfl⟩

theorem buildValue_builder (builder : Builder) (blocks : Value) :
    (builder.buildValue blocks).builder =
      builder.mergeAll (Call.merges builder.applied (.build blocks)) := by
  rw [Call.merges]
  cases read : blocks.parts? with
  | none =>
      obtain ⟨fault, same⟩ := builder.buildValue_of_none read
      rw [same]
      rfl
  | some parts =>
      rw [builder.buildValue_of_parts read]
      exact build_builder builder parts

theorem call_eq_mergeAll (builder : Builder) (call : Call) :
    builder.call call = builder.mergeAll (call.merges builder.applied) := by
  cases call with
  | add block overwrite => exact add_builder builder block overwrite
  | build blocks => exact buildValue_builder builder blocks

theorem run_eq_mergeAll (builder : Builder) (calls : List Call) :
    builder.run calls = builder.mergeAll (Call.history builder.applied calls) := by
  induction calls generalizing builder with
  | nil => rfl
  | cons call rest ih =>
      have step : builder.run (call :: rest) = (builder.call call).run rest := rfl
      rw [step, ih, call_eq_mergeAll, mergeAll_applied, Call.history, mergeAll_append]

end Builder

theorem Value.wellFormed_of_statement? {value : Value} {statement : Statement}
    (read : value.statement? = some statement) : statement.WellFormed := by
  unfold Value.statement? at read
  split at read
  · exact Statement.wellFormed_of_parse? read
  · cases read

theorem Value.wellFormed_of_entries (entries : List Value) :
    ∀ statement ∈ entries.filterMap Value.statement?, statement.WellFormed := by
  intro statement present
  obtain ⟨entry, -, read⟩ := List.mem_filterMap.mp present
  exact Value.wellFormed_of_statement? read

/-- A property of trees that setting the place of a well-formed statement preserves. -/
def Stable (holds : Tree → Prop) : Prop :=
  ∀ tree statement, Statement.WellFormed statement → holds tree →
    holds (tree.set statement.key statement.effect)

namespace Stable

variable {holds : Tree → Prop}

theorem read (stable : Stable holds) (overwrite : Bool) (pass : Pass) (statement : Statement)
    (good : statement.WellFormed) (before : holds pass.tree) :
    holds (pass.read overwrite statement).tree := by
  unfold Pass.read
  dsimp only
  split
  · exact before
  · exact stable pass.tree statement good before

theorem readAll (stable : Stable holds) (overwrite : Bool) (pass : Pass)
    (statements : List Statement) (good : ∀ statement ∈ statements, statement.WellFormed)
    (before : holds pass.tree) : holds (pass.readAll overwrite statements).tree := by
  induction statements generalizing pass with
  | nil => exact before
  | cons statement rest ih =>
      rw [List.forall_mem_cons] at good
      exact ih (pass.read overwrite statement) good.2
        (stable.read overwrite pass statement good.1 before)

theorem addBlock (stable : Stable holds) (builder : Builder) (entries : List Value)
    (overwrite : Bool) (before : holds builder.tree) :
    holds (builder.addBlock entries overwrite).tree :=
  stable.readAll overwrite ⟨builder.tree, []⟩ _ (Value.wellFormed_of_entries entries) before

theorem mergeAll (stable : Stable holds) (builder : Builder) (merges : List Merge)
    (before : holds builder.tree) : holds (builder.mergeAll merges).tree := by
  induction merges generalizing builder with
  | nil => exact before
  | cons merge rest ih =>
      exact ih _ (stable.addBlock builder merge.entries merge.overwrite before)

theorem run (stable : Stable holds) (builder : Builder) (calls : List Call)
    (before : holds builder.tree) : holds (builder.run calls).tree := by
  rw [Builder.run_eq_mergeAll]
  exact stable.mergeAll builder _ before

end Stable

end Permits
