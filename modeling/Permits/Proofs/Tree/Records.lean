import Permits.Proofs.Tree.Merge

set_option autoImplicit false

namespace Permits

/-- Whether a value is a text that follows the statement grammar. -/
def Value.isStatement : Value → Bool
  | .scalar (.text text) => Permits.isStatement text
  | _ => false

theorem Value.isSome_statement? (value : Value) : value.statement?.isSome = value.isStatement := by
  cases value with
  | scalar scalar =>
      cases scalar with
      | text text => exact Statement.isSome_parse? text
      | _ => rfl
  | _ => rfl

/-- A block that is being read: its pass, the number of the entries that were skipped so far, and
the records about them. -/
structure Reading where
  pass : Pass
  skipped : Nat
  records : List Record

namespace Reading

def start (builder : Builder) : Reading := ⟨⟨builder.tree, []⟩, 0, []⟩

/-- Reads one entry: as a statement, or else it is counted and reported. -/
def read (overwrite : Bool) (reading : Reading) (entry : Value) : Reading :=
  match entry.statement? with
  | some statement => { reading with pass := reading.pass.read overwrite statement }
  | none =>
      { reading with
        skipped := reading.skipped + 1
        records := reading.records ++ [.malformed entry] }

/-- Ends the block. The count of blocks goes on first, so the index of this one is one less. -/
def finish (builder : Builder) (reading : Reading) : BuildRun :=
  let applied := builder.applied + 1
  let summary := if 0 < reading.skipped then [.skipped (applied - 1) reading.skipped] else []
  ⟨⟨reading.pass.tree, applied⟩, reading.records ++ summary, none⟩

/-- What has been read of a block: the statements in the pass, the other entries in the records. -/
theorem foldl_read (overwrite : Bool) (entries : List Value) (reading : Reading) :
    entries.foldl (read overwrite) reading =
      let rejected := entries.filter fun entry => entry.statement?.isNone
      { pass := reading.pass.readAll overwrite (entries.filterMap Value.statement?)
        skipped := reading.skipped + rejected.length
        records := reading.records ++ rejected.map .malformed } := by
  induction entries generalizing reading with
  | nil => simp [Pass.readAll]
  | cons entry rest ih =>
      rw [List.foldl_cons, ih, read]
      cases parsed : entry.statement? with
      | none => simp [parsed, Nat.add_assoc, Nat.add_comm 1]
      | some statement => simp [parsed, Pass.readAll]

end Reading

namespace Builder

theorem finish_foldl_read (builder : Builder) (entries : List Value) (overwrite : Bool) :
    (entries.foldl (Reading.read overwrite) (Reading.start builder)).finish builder =
      ⟨builder.addBlock entries overwrite, blockRecords builder.applied entries, none⟩ := by
  rw [Reading.foldl_read, blockRecords, addBlock]
  cases entries.filter fun entry => entry.statement?.isNone with
  | nil => rfl
  | cons first rest => simp [Reading.finish, Reading.start]

theorem add_eq_reading (builder : Builder) (block : Value) (overwrite : Bool) :
    builder.add block overwrite =
      match block.parts? with
      | none => ⟨builder, [], some .noParts⟩
      | some entries =>
          (entries.foldl (Reading.read overwrite) (Reading.start builder)).finish builder := by
  rw [add]
  cases block.parts? with
  | none => rfl
  | some entries => exact (finish_foldl_read builder entries overwrite).symm

/-- What a call leaves: its state, its records, and the fault that stopped it. -/
def answer (builder : Builder) : Call → BuildRun
  | .add block overwrite => builder.add block overwrite
  | .build blocks => builder.buildValue blocks

theorem answer_builder (builder : Builder) (call : Call) :
    (builder.answer call).builder = builder.call call := by
  cases call <;> rfl

/-- The records that a list of calls leaves, in order. -/
def records (builder : Builder) : List Call → List Record
  | [] => []
  | call :: rest => (builder.answer call).records ++ (builder.answer call).builder.records rest

/-- The records of blocks, the first of which has an index in the builder's life. -/
def mergeRecords (index : Nat) (merges : List Merge) : List Record :=
  (merges.zipIdx index).flatMap fun (merge, index) => blockRecords index merge.entries

theorem mergeRecords_append (index : Nat) (first second : List Merge) :
    mergeRecords index (first ++ second) =
      mergeRecords index first ++ mergeRecords (index + first.length) second := by
  rw [mergeRecords, List.zipIdx_append, List.flatMap_append]
  rfl

theorem build_records (builder : Builder) (blocks : List Value) :
    (builder.build blocks).records =
      mergeRecords builder.applied ((reached blocks).mapIdx fun i entries =>
        ⟨entries, decide (0 < builder.applied + i)⟩) := by
  induction blocks generalizing builder with
  | nil => rfl
  | cons block rest ih =>
      rw [build, add, reached]
      cases block.parts? with
      | none => rfl
      | some entries =>
          have later : ∀ i, builder.applied + 1 + i = builder.applied + (i + 1) := by
            intro i
            omega
          simp only [ih, List.mapIdx_cons, addBlock, later, Nat.add_zero]
          rfl

theorem answer_records (builder : Builder) (call : Call) :
    (builder.answer call).records =
      mergeRecords builder.applied (call.merges builder.applied) := by
  cases call with
  | add block overwrite =>
      rw [answer, add, Call.merges]
      cases block.parts? with
      | none => rfl
      | some entries => exact (List.append_nil _).symm
  | build blocks =>
      rw [answer, Call.merges]
      cases read : blocks.parts? with
      | none =>
          obtain ⟨fault, same⟩ := builder.buildValue_of_none read
          rw [same]
          rfl
      | some parts =>
          rw [builder.buildValue_of_parts read]
          exact build_records builder parts

theorem records_eq_mergeRecords (builder : Builder) (calls : List Call) :
    builder.records calls = mergeRecords builder.applied (Call.history builder.applied calls) := by
  induction calls generalizing builder with
  | nil => rfl
  | cons call rest ih =>
      rw [records, ih, answer_records, answer_builder, call_eq_mergeAll, mergeAll_applied,
        Call.history, mergeRecords_append]

theorem effect?_run_ne_none (calls : List Call) {merge : Merge}
    (merged : merge ∈ Call.history 0 calls) {entry : Value} (present : entry ∈ merge.entries)
    {statement : Statement} (read : entry.statement? = some statement) :
    (empty.run calls).tree.effect? statement.key ≠ none := by
  have run : empty.run calls = empty.mergeAll (Call.history 0 calls) := run_eq_mergeAll _ _
  rw [run, Ne, (effect?_mergeAll _ _).1]
  intro silent
  have mentioned : mentions statement.key merge.entries = true :=
    List.any_eq_true.mpr ⟨entry, present, by simp [read]⟩
  rw [silent merge merged] at mentioned
  cases mentioned

end Builder

/-- A record as it is written: its channel, its level, its words. -/
def Record.line (record : Record) : Channel × Level × String :=
  (record.channel, record.level, record.message)

/-- The lines that are due for a block: one for each entry that is no statement, and then, if there
is any, one with the index of the block and their number. -/
def dueLines (index : Nat) (entries : List Value) : List (Channel × Level × String) :=
  let rejected := entries.filter (!·.isStatement)
  rejected.map (fun entry => (.builder, .debug,
      "Skipping malformed permission statement " ++ entry.display)) ++
    if rejected.isEmpty then []
    else [(.builder, .debug, "Block " ++ toString index ++ ": skipped " ++
      toString rejected.length ++ " malformed statement(s)")]

theorem map_line_blockRecords (index : Nat) (entries : List Value) :
    (Builder.blockRecords index entries).map Record.line = dueLines index entries := by
  have same : (fun entry : Value => entry.statement?.isNone) = (!·.isStatement) := by
    funext entry
    rw [← Value.isSome_statement?, Option.not_isSome]
  rw [Builder.blockRecords, dueLines, same]
  cases entries.filter (!·.isStatement) with
  | nil => rfl
  | cons first rest =>
      simp only [List.map_append, List.map_map]
      rfl

namespace Builder

/-- What a run from a fresh builder reports. Block after block, its records are the due ones, where
the index of a block is the number of the blocks before it. Nothing goes without a record: every
entry that is a statement has its place in the tree. Each block is read entry by entry; something
without parts leaves no record and does not count as a block. -/
theorem records_run (calls : List Call) :
    let blocks := Call.history 0 calls
    (empty.records calls).map Record.line =
        (blocks.zipIdx.flatMap fun (block, index) => dueLines index block.entries) ∧
      (empty.run calls).applied = blocks.length ∧
      (∀ block ∈ blocks, ∀ entry ∈ block.entries, entry.isStatement = true →
        ∃ statement, entry.statement? = some statement ∧
          (empty.run calls).tree.effect? statement.key ≠ none) ∧
      ∀ (builder : Builder) block overwrite, builder.add block overwrite =
        match block.parts? with
        | none => ⟨builder, [], some .noParts⟩
        | some entries =>
            (entries.foldl (Reading.read overwrite) (Reading.start builder)).finish builder := by
  intro blocks
  refine ⟨?_, ?_, ?_, add_eq_reading⟩
  · rw [records_eq_mergeRecords, mergeRecords, List.map_flatMap]
    simp only [map_line_blockRecords]
    rfl
  · rw [run_eq_mergeAll, mergeAll_applied]
    exact Nat.zero_add _
  · intro block merged entry present good
    rw [← Value.isSome_statement?, Option.isSome_iff_exists] at good
    obtain ⟨statement, read⟩ := good
    exact ⟨statement, read, effect?_run_ne_none calls merged present read⟩

-- The null is no block: it has no index, and the block of the second call has the next one.
example : (empty.records
      [.add (.list [.ofText "nope", .ofText "a@b"]) false, .add (.scalar .null) true,
        .build (.list [.list [.scalar (.int 7), .ofText "nope"], .scalar .null, .list []])]).map
      Record.message =
    ["Skipping malformed permission statement 'nope'", "Block 0: skipped 1 malformed statement(s)",
      "Skipping malformed permission statement 7", "Skipping malformed permission statement 'nope'",
      "Block 1: skipped 2 malformed statement(s)"] := by decide +kernel

end Builder

end Permits
