import Permits.Proofs.Tree.Compaction

set_option autoImplicit false

namespace Permits

theorem Value.parts?_eq_none_iff (value : Value) :
    value.parts? = none ↔ ∃ scalar, value = .scalar scalar ∧ ∀ text, scalar ≠ .text text := by
  cases value with
  | scalar scalar => cases scalar <;> simp [Value.parts?]
  | list items => simp
  | map entries => simp [Value.parts?]

namespace BuildRun

def behind (records : List Record) (run : BuildRun) : BuildRun :=
  { run with records := records ++ run.records }

/-- A run, and behind it the build of further blocks if nothing stopped the run. -/
def followedBy (run : BuildRun) (blocks : List Value) : BuildRun :=
  match run.fault with
  | some _ => run
  | none => (run.builder.build blocks).behind run.records

variable {run : BuildRun}

theorem followedBy_of_stopped (stopped : run.fault ≠ none) (blocks : List Value) :
    run.followedBy blocks = run := by
  obtain ⟨fault, stop⟩ := Option.ne_none_iff_exists'.mp stopped
  simp only [followedBy, stop]

theorem followedBy_of_whole (whole : run.fault = none) (blocks : List Value) :
    run.followedBy blocks = (run.builder.build blocks).behind run.records := by
  simp only [followedBy, whole]

theorem behind_followedBy (records : List Record) (run : BuildRun) (blocks : List Value) :
    (run.behind records).followedBy blocks = (run.followedBy blocks).behind records := by
  by_cases whole : run.fault = none
  · have whole' : (run.behind records).fault = none := whole
    rw [followedBy_of_whole whole, followedBy_of_whole whole']
    simp only [behind, List.append_assoc]
  · have stopped : (run.behind records).fault ≠ none := whole
    rw [followedBy_of_stopped whole, followedBy_of_stopped stopped]

end BuildRun

namespace Builder

theorem build_cons (builder : Builder) (block : Value) (rest : List Value) :
    builder.build (block :: rest) =
      (builder.add block (builder.applied > 0)).followedBy rest := rfl

/-- Building two lists of blocks as one is building the first, followed by the second. -/
theorem build_append (builder : Builder) (first second : List Value) :
    builder.build (first ++ second) = (builder.build first).followedBy second := by
  induction first generalizing builder with
  | nil => rfl
  | cons block rest ih =>
      rw [List.cons_append, build_cons, build_cons]
      generalize builder.add block (builder.applied > 0) = run
      by_cases whole : run.fault = none
      · rw [BuildRun.followedBy_of_whole whole, BuildRun.followedBy_of_whole whole, ih,
          BuildRun.behind_followedBy]
      · rw [BuildRun.followedBy_of_stopped whole, BuildRun.followedBy_of_stopped whole,
          BuildRun.followedBy_of_stopped whole]

/-- Something without parts stops a build that gets to it, and leaves no other trace. -/
theorem build_stopped (builder : Builder) {first : List Value} (second : List Value) {bad : Value}
    (readable : Readable first) (noParts : bad.parts? = none) :
    builder.build (first ++ bad :: second) =
      { builder.build first with fault := some .noParts } := by
  have whole := (build_fault_eq_none_iff builder first).mpr readable
  have stop : (builder.build first).builder.build (bad :: second) =
      ⟨(builder.build first).builder, [], some .noParts⟩ := by
    rw [build_cons, add, noParts]
    rfl
  rw [build_append, BuildRun.followedBy_of_whole whole, stop]
  simp only [BuildRun.behind, List.append_nil]

/-- Builds in parts, from any state. Building two lists of blocks as one is building the first and
then the second, unless the first is stopped, which stops the whole. Something without parts stops
the build that gets to it with a fault; the state is the one in front of it, and from there the
blocks behind it can be built as if it had not been among them. A single merge of it changes
nothing. -/
theorem buildValue_in_parts (builder : Builder) (first second : List Value) :
    let build := fun (builder : Builder) blocks => builder.buildValue (.list blocks)
    build builder (first ++ second) = (build builder first).followedBy second ∧
      (Readable first →
        (build (build builder first).builder second).builder =
          (build builder (first ++ second)).builder) ∧
      ∀ scalar : Scalar, (∀ text, scalar ≠ .text text) →
        (Readable first →
          let stopped := build builder (first ++ .scalar scalar :: second)
          stopped = { build builder first with fault := some .noParts } ∧
            (build stopped.builder second).builder = (build builder (first ++ second)).builder) ∧
        ∀ overwrite, builder.add (.scalar scalar) overwrite = ⟨builder, [], some .noParts⟩ := by
  intro build
  simp only [build, buildValue_list]
  have resumed : Readable first → ((builder.build first).builder.build second).builder =
      (builder.build (first ++ second)).builder := by
    intro readable
    have whole := (build_fault_eq_none_iff builder first).mpr readable
    rw [build_append, BuildRun.followedBy_of_whole whole]
    rfl
  refine ⟨build_append builder first second, resumed, ?_⟩
  intro scalar noText
  have noParts := (Value.parts?_eq_none_iff (.scalar scalar)).mpr ⟨scalar, rfl, noText⟩
  constructor
  · intro readable
    have stopped := build_stopped builder second readable noParts
    refine ⟨stopped, ?_⟩
    rw [stopped]
    exact resumed readable
  · intro overwrite
    rw [add, noParts]

/-- A builder with one block from a merge of its own is stopped by a null behind a second block.
The third block, built afterwards, overwrites as it would have without the null. -/
theorem buildValue_in_parts_null :
    let builder := empty.addBlock [.ofText "read@docs"] false
    let first := textBlocks [["-read@docs:a", "read@docs:a"]]
    let second := textBlocks [["-read@docs:a"]]
    let stopped := builder.buildValue (.list (first ++ .scalar .null :: second))
    Readable first ∧ stopped.fault = some .noParts ∧ stopped.builder.applied = 2 ∧
      (stopped.builder.buildValue (.list second)).builder =
        (builder.buildValue (.list (first ++ second))).builder ∧
      (builder.buildValue (.list (first ++ second))).builder.tree.effect? ⟨"docs", "a", "read"⟩ =
        some .deny := by
  intro builder first second stopped
  have readable : Readable first := readable_textBlocks _
  have parts := (buildValue_in_parts builder first second).2.2 .null fun _ same => nomatch same
  exact ⟨readable, by decide, by decide, (parts.1 readable).2, by decide⟩

end Builder

end Permits
