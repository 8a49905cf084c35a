import Permits.Proofs.Decision.Deciding
import Permits.Proofs.Tree.Compaction

set_option autoImplicit false

namespace Permits

/-- The statements of a block at the places that a request asks for. -/
def concerning (request : Statement) (entries : List Value) : List Statement :=
  (entries.filterMap Value.statement?).filter fun statement => statement.key.Concerns request

/-- Whether blocks speak of the app of a request only where the request asks. -/
def OnlyConcerning (request : Statement) (blocks : List (List Value)) : Prop :=
  ∀ entries ∈ blocks, ∀ statement ∈ entries.filterMap Value.statement?,
    statement.app = request.app → statement.key.Concerns request

theorem verdict?_filter {key : Key} {keep : Statement → Bool}
    (kept : ∀ statement : Statement, statement.key = key → keep statement = true)
    (statements : List Statement) :
    verdict? key (statements.filter keep) = verdict? key statements := by
  induction statements with
  | nil => rfl
  | cons statement rest ih =>
      rw [List.filter_cons]
      by_cases same : statement.key = key
      · rw [if_pos (kept statement same), verdict?, verdict?, ih]
      · split
        · rw [verdict?, verdict?, ih]
        · rw [ih, verdict?, if_neg same]

theorem verdict?_concerning {key : Key} {request : Statement} (asked : key.Concerns request)
    (entries : List Value) :
    verdict? key (concerning request entries) =
      verdict? key (entries.filterMap Value.statement?) := by
  apply verdict?_filter
  intro statement same
  rw [same]
  exact decide_eq_true asked

variable {request : Statement} {first second : List (List Value)}

/-- At a place that a request asks for, only the statements count that the request asks for. -/
theorem lastVerdict?_of_same_concerning {key : Key} (asked : key.Concerns request)
    (same : first.map (concerning request) = second.map (concerning request)) :
    lastVerdict? key first = lastVerdict? key second := by
  induction first generalizing second with
  | nil =>
      have nothing : second = [] := by simpa using same.symm
      rw [nothing]
  | cons entries rest ih =>
      cases second with
      | nil => simp at same
      | cons entries' rest' =>
          rw [List.map_cons, List.map_cons, List.cons.injEq] at same
          rw [lastVerdict?, lastVerdict?, ih same.2, ← verdict?_concerning asked,
            ← verdict?_concerning asked, same.1]

/-- Blocks that speak of an app only where a request asks speak of it where some block keeps a
statement for the request. -/
theorem exists_place_iff_of_only (only : OnlyConcerning request first) :
    (∃ key ∈ places first, key.app = request.app) ↔
      ∃ statements ∈ first.map (concerning request), statements ≠ [] := by
  simp only [places, List.mem_flatMap, List.mem_map]
  constructor
  · intro spoken
    obtain ⟨key, ⟨entries, block, statement, listed, rfl⟩, app⟩ := spoken
    refine ⟨_, ⟨entries, block, rfl⟩, ?_⟩
    apply List.ne_nil_of_mem (a := statement)
    rw [concerning, List.mem_filter]
    exact ⟨listed, decide_eq_true (only entries block statement listed app)⟩
  · intro kept
    obtain ⟨_, ⟨entries, block, rfl⟩, held⟩ := kept
    obtain ⟨statement, kept⟩ := List.exists_mem_of_ne_nil _ held
    rw [concerning, List.mem_filter, decide_eq_true_eq] at kept
    exact ⟨statement.key, ⟨entries, block, statement, kept.1, rfl⟩, kept.2.1⟩

namespace Builder

/-- Two builds that hold the same statements where a request asks, block by block, answer it alike:
both authorize it or neither does, and a report that names a statement is the report of both. Where
every other entry is no statement or is on another app, the reports are the same in any case. -/
theorem report_of_same_concerning {value : Value} (valid : value.statement? = some request)
    {first second : List Value}
    (same : (reached first).map (concerning request) = (reached second).map (concerning request)) :
    let report := ((empty.buildValue (.list first)).builder.tree.authorize value).report
    let report' := ((empty.buildValue (.list second)).builder.tree.authorize value).report
    report.authorized = report'.authorized ∧
      ((∃ text, report.Names text ∨ report'.Names text) → report = report') ∧
      (OnlyConcerning request (reached first) → OnlyConcerning request (reached second) →
        report = report') := by
  intro report report'
  have decided : (empty.build first).builder.tree.deciding? request =
      (empty.build second).builder.tree.deciding? request := by
    apply Tree.deciding?_congr
    intro key asked
    rw [effect?_build, effect?_build, lastVerdict?_of_same_concerning asked same]
  simp only [report, report', buildValue_list, Tree.authorize, valid, Tree.settle_eq_deciding,
    decided]
  -- With a deciding place both reports are the same text; without one they differ at most in
  -- whether the app is known.
  cases (empty.build second).builder.tree.deciding? request with
  | some settled => exact ⟨rfl, fun _ => rfl, fun _ _ => rfl⟩
  | none =>
      simp only [Option.map_none, Option.getD_none, Decision.names_report_iff]
      refine ⟨?_, ?_, ?_⟩
      · split <;> split <;> rfl
      · intro either
        obtain ⟨text, named | named⟩ := either
        · split at named <;> cases named
        · split at named <;> cases named
      · intro only only'
        have known : request.app ∈ Table.names (empty.build first).builder.tree ↔
            request.app ∈ Table.names (empty.build second).builder.tree := by
          rw [mem_names_build_iff, mem_names_build_iff, exists_place_iff_of_only only,
            exists_place_iff_of_only only', same]
        simp only [known]

/-- Another permission, another path, another app and an entry that is no statement: with or
without them the same denial decides, and both reports name it. -/
theorem report_of_same_concerning_denied :
    let first := textBlocks [["-access@projects:42"], ["read@files"]]
    let second := textBlocks [["write@projects", "-access@projects:42", "access"],
      ["access@projects:7", "*@files"]]
    let request := Value.ofText "access@projects:42:files"
    let report := ((empty.buildValue (.list first)).builder.tree.authorize request).report
    report.Names "-access@projects:42" ∧
      report = ((empty.buildValue (.list second)).builder.tree.authorize request).report := by
  intro first second request report
  have valid : request.statement? =
      some ⟨.grant, "access", "projects", ["42", "files"]⟩ := by decide
  have same : (reached first).map (concerning ⟨.grant, "access", "projects", ["42", "files"]⟩) =
      (reached second).map (concerning ⟨.grant, "access", "projects", ["42", "files"]⟩) := by
    decide
  have named : report.Names "-access@projects:42" := by
    right
    decide
  exact ⟨named, (report_of_same_concerning valid same).2.1 ⟨_, Or.inl named⟩⟩

end Builder

end Permits
