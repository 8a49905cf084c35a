import Permits.Record
import Permits.Statement.Grammar
import Permits.Tree.Basic

set_option autoImplicit false

namespace Permits

def Value.statement? : Value → Option Statement
  | .scalar (.text text) => Statement.parse? text
  | _ => none

def Value.invalidStatement (value : Value) : String :=
  "Invalid permission statement: " ++ value.display

/-- One block being read: the tree so far and the places that this block has set. -/
structure Pass where
  tree : Tree
  marked : List Key

namespace Pass

/-- Reads one statement. A grant stays as it is, unless the block overwrites and has not set the
place yet. -/
def read (overwrite : Bool) (pass : Pass) (statement : Statement) : Pass :=
  let key := statement.key
  if pass.tree.effect? key = some .grant ∧ (overwrite = false ∨ key ∈ pass.marked) then pass
  else
    { tree := pass.tree.set key statement.effect
      marked := if overwrite then key :: pass.marked else pass.marked }

def readAll (overwrite : Bool) (pass : Pass) (statements : List Statement) : Pass :=
  statements.foldl (read overwrite) pass

end Pass

/-- A tree under construction and the number of blocks that went into it. -/
structure Builder where
  tree : Tree
  applied : Nat
  deriving DecidableEq

inductive BuildFault where
  /-- Something that has no parts stood in the place of a block or of the blocks. -/
  | noParts
  deriving DecidableEq

/-- The state that a build leaves, its records, and the fault that stopped it, if any. -/
structure BuildRun where
  builder : Builder
  records : List Record
  fault : Option BuildFault

namespace Builder

def empty : Builder := ⟨[], 0⟩

/-- The records of one block: each entry that is no statement, and then their number. -/
def blockRecords (block : Nat) (entries : List Value) : List Record :=
  let rejected := entries.filter fun entry => entry.statement?.isNone
  rejected.map .malformed ++ (if rejected.isEmpty then [] else [.skipped block rejected.length])

def addBlock (builder : Builder) (entries : List Value) (overwrite : Bool) : Builder :=
  let statements := entries.filterMap Value.statement?
  { tree := (Pass.readAll overwrite ⟨builder.tree, []⟩ statements).tree
    applied := builder.applied + 1 }

/-- Merges a value that should be a block. A value with no parts leaves the builder as it is. -/
def add (builder : Builder) (block : Value) (overwrite : Bool) : BuildRun :=
  match block.parts? with
  | none => ⟨builder, [], some .noParts⟩
  | some entries =>
      ⟨builder.addBlock entries overwrite, blockRecords builder.applied entries, none⟩

/-- Merges blocks in order, every one but the first of the builder's life overwriting. The first
fault stops the build. -/
def build (builder : Builder) : List Value → BuildRun
  | [] => ⟨builder, [], none⟩
  | block :: rest =>
      let run := builder.add block (builder.applied > 0)
      match run.fault with
      | some _ => run
      | none =>
          let later := run.builder.build rest
          { later with records := run.records ++ later.records }

/-- Merges a value that should be a list of blocks. Any empty value is no blocks. -/
def buildValue (builder : Builder) (blocks : Value) : BuildRun :=
  if blocks.isEmpty then ⟨builder, [], none⟩
  else
    match blocks.parts? with
    | none => ⟨builder, [], some .noParts⟩
    | some parts => builder.build parts

def buildTexts (builder : Builder) (blocks : List (List String)) : BuildRun :=
  builder.build (blocks.map fun texts => .list (texts.map .ofText))

end Builder

end Permits
