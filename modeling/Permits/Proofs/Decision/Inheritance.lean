import Permits.Proofs.Decision.Explanation

set_option autoImplicit false

namespace Permits

/-- A path that is no longer than a request speaks for everything below it in the same way. -/
theorem Fit.applies_append_iff {fit : Fit} {request path : List String} (rest : List String)
    (within : path.length ≤ request.length) :
    fit.Applies (request ++ rest) path ↔ fit.Applies request path := by
  cases fit with
  | plain =>
      constructor
      · intro starts
        exact List.prefix_of_prefix_length_le starts (List.prefix_append request rest) within
      · intro starts
        exact starts.trans (List.prefix_append request rest)
  | blanked position =>
      -- Every position that counts lies inside the path, and so inside the shorter request.
      have inside : ∀ other < path.length, (request ++ rest)[other]? = request[other]? := by
        intro other below
        exact List.getElem?_append_left (below.trans_le within)
      have longer : path.length ≤ (request ++ rest).length := by
        rw [List.length_append]
        omega
      constructor
      · intro applies
        obtain ⟨-, room, empty, filled, agree⟩ := applies
        rw [inside position room] at filled
        refine ⟨within, room, empty, filled, ?_⟩
        intro other below elsewhere
        rw [agree other below elsewhere, inside other below]
      · intro applies
        obtain ⟨-, room, empty, filled, agree⟩ := applies
        rw [← inside position room] at filled
        refine ⟨longer, room, empty, filled, ?_⟩
        intro other below elsewhere
        rw [agree other below elsewhere, inside other below]

/-- A request that asks for the same permission of the same app on segments that go on from those
of another request. -/
structure Statement.Below (lower upper : Statement) : Prop where
  app : lower.app = upper.app
  permission : lower.permission = upper.permission
  segments : upper.segments <+: lower.segments

section Below

variable {upper lower : Statement} {entry : String × Permissions} {fit : Fit}

theorem Statement.Below.speaks_iff (below : lower.Below upper)
    (within : (pathSegments entry.1).length ≤ upper.segments.length) :
    Speaks lower entry fit ↔ Speaks upper entry fit := by
  obtain ⟨rest, whole⟩ := below.segments
  have applies : fit.Applies (upper.segments ++ rest) (pathSegments entry.1) ↔
      fit.Applies upper.segments (pathSegments entry.1) := Fit.applies_append_iff rest within
  rw [whole] at applies
  constructor
  · intro speaks
    exact ⟨applies.mp speaks.applies, below.permission ▸ speaks.holds⟩
  · intro speaks
    exact ⟨applies.mpr speaks.applies, below.permission.symm ▸ speaks.holds⟩

theorem Statement.Below.speaks (below : lower.Below upper) (spoken : Speaks upper entry fit) :
    Speaks lower entry fit := (below.speaks_iff spoken.applies.length_le).mpr spoken

theorem Resources.Decides.above {resources : Resources} (below : lower.Below upper)
    (decides : resources.Decides lower entry fit)
    (within : (pathSegments entry.1).length ≤ upper.segments.length) :
    resources.Decides upper entry fit where
  present := decides.present
  speaks := (below.speaks_iff within).mp decides.speaks
  highest := fun other present otherFit spoken =>
    decides.highest other present otherFit (below.speaks spoken)

namespace Tree

variable {tree : Tree}

theorem effect?_of_decides (good : tree.WellFormed) {request : Statement} {resources : Resources}
    (known : tree.find? request.app = some resources)
    (decides : resources.Decides request entry fit) :
    tree.effect? ⟨request.app, entry.1, (entry.2.ruling request.permission).1⟩ =
      some (entry.2.ruling request.permission).2 := by
  have held : entry.2.find? (entry.2.ruling request.permission).1 =
      some (entry.2.ruling request.permission).2 :=
    Permissions.find?_of_settleBy (Permissions.settleBy_of_holds decides.speaks.holds)
  have stored := Table.find?_of_mem (good.find? known).unique decides.present
  simp only [effect?, known, stored, Option.bind_some, held]

/-- A request below another one is settled like that one, or by a path that is longer than it. -/
theorem settle_below (good : tree.WellFormed) (below : lower.Below upper)
    (upperPath : IsPath upper.segments) (lowerPath : IsPath lower.segments) :
    tree.settle lower = tree.settle upper ∨ ∃ key effect,
      tree.effect? key = some effect ∧
        tree.settle lower = .settled effect key.permission key.app key.resource ∧
        upper.segments.length < (pathSegments key.resource).length := by
  cases known : tree.find? lower.app with
  | none =>
      left
      have unknown := known
      rw [below.app] at unknown
      rw [settle, settle, known, unknown, below.app]
  | some resources =>
      have upperKnown := known
      rw [below.app] at upperKnown
      by_cases spoken : ∃ entry ∈ resources, ∃ fit, Speaks lower entry fit
      · obtain ⟨first, present, firstFit, speaks⟩ := spoken
        obtain ⟨entry, fit, decides⟩ :=
          Resources.exists_decides (good.find? known) present speaks
        -- Either what decides below speaks above as well, or it is the longer path.
        by_cases within : (pathSegments entry.1).length ≤ upper.segments.length
        · left
          rw [settle_of_decides good lowerPath known decides,
            settle_of_decides good upperPath upperKnown (decides.above below within), below.app,
            below.permission]
        · right
          exact ⟨_, _, effect?_of_decides good known decides,
            settle_of_decides good lowerPath known decides, Nat.lt_of_not_le within⟩
      · left
        have silent : ∀ entry ∈ resources, ∀ fit, ¬ Speaks lower entry fit :=
          fun entry present fit speaks => spoken ⟨entry, present, fit, speaks⟩
        have upperSilent : ∀ entry ∈ resources, ∀ fit, ¬ Speaks upper entry fit :=
          fun entry present fit speaks => silent entry present fit (below.speaks speaks)
        rw [settle_of_silent good lowerPath known silent,
          settle_of_silent good upperPath upperKnown upperSilent]

end Tree

end Below

namespace Builder

/-- Decisions are inherited. A valid request below another one gets the same report, or its report
names a statement with more segments than the other request. -/
theorem report_inherited_or_longer (calls : List Call) {value deeper : Value}
    {upper lower : Statement} (valid : value.statement? = some upper)
    (deeperValid : deeper.statement? = some lower) (below : lower.Below upper) :
    let tree := (empty.run calls).tree
    (tree.authorize deeper).report = (tree.authorize value).report ∨
      ∃ text decisive, (tree.authorize deeper).report.Names text ∧
        Statement.parse? text = some decisive ∧
        upper.segments.length < decisive.segments.length := by
  intro tree
  have good : tree.WellFormed := Tree.wellFormed_run calls
  have upperPath := (Value.wellFormed_of_statement? valid).path
  have lowerPath := (Value.wellFormed_of_statement? deeperValid).path
  simp only [Tree.authorize, valid, deeperValid]
  rcases Tree.settle_below good below upperPath lowerPath with same | longer
  · left
    rw [same]
  · right
    obtain ⟨key, effect, held, settled, length⟩ := longer
    obtain ⟨decisive, read, place, -⟩ := Tree.exists_statement?_of_effect? good held
    have segments : pathSegments key.resource = decisive.segments := by
      rw [← place]
      exact (Value.wellFormed_of_statement? read).path.pathSegments_joinPath
    refine ⟨_, decisive, ?_, read, segments ▸ length⟩
    rw [settled, Decision.names_report_iff]
    rfl

/-- The grant of a project gives way where a denial reaches further into the request. -/
theorem report_inherited_or_longer_secret :
    let tree := (empty.run [.build (.list [.list [.ofText "access@projects:42",
      .ofText "-access@projects:42::secret"]])]).tree
    let value := Value.ofText "access@projects:42"
    let deeper := Value.ofText "access@projects:42:files:secret"
    (tree.authorize value).authorized = true ∧ ∃ text decisive,
      (tree.authorize deeper).report.Names text ∧ Statement.parse? text = some decisive ∧
        1 < decisive.segments.length := by
  intro tree value deeper
  have valid : value.statement? = some ⟨.grant, "access", "projects", ["42"]⟩ := by decide
  have deeperValid : deeper.statement? =
      some ⟨.grant, "access", "projects", ["42", "files", "secret"]⟩ := by decide
  have below : Statement.Below ⟨.grant, "access", "projects", ["42", "files", "secret"]⟩
      ⟨.grant, "access", "projects", ["42"]⟩ := ⟨rfl, rfl, by decide⟩
  have other : (tree.authorize deeper).report ≠ (tree.authorize value).report := by decide
  exact ⟨by decide, (report_inherited_or_longer _ valid deeperValid below).resolve_left other⟩

end Builder

end Permits
