import Permits.Proofs.Decision.Deciding
import Permits.Proofs.Tree.Compaction

set_option autoImplicit false

namespace Permits

/-- Whether each segment of a pattern is open or is the segment of the request at its place. The
request may go on behind the pattern. -/
def Matches (pattern request : List String) : Prop :=
  pattern.length ≤ request.length ∧ ∀ position < pattern.length,
    pattern[position]? = some "" ∨ pattern[position]? = request[position]?

instance decidableMatches (pattern request : List String) : Decidable (Matches pattern request) :=
  inferInstanceAs (Decidable (pattern.length ≤ request.length ∧ ∀ position < pattern.length,
    pattern[position]? = some "" ∨ pattern[position]? = request[position]?))

variable {pattern request : List String}

/-- A pattern that matches agrees with the request wherever the request does not fill it. -/
theorem Matches.agree (matched : Matches pattern request) {position : Nat}
    (inside : position < pattern.length) (unfilled : ¬ Fills pattern request position) :
    pattern[position]? = request[position]? := by
  rcases matched.2 position inside with opened | same
  · have empty : request[position]? = some "" := by
      by_contra filled
      exact unfilled ⟨opened, filled⟩
    rw [opened, empty]
  · exact same

namespace Fit

theorem Applies.matches {fit : Fit} (applies : fit.Applies request pattern) :
    Matches pattern request := by
  refine ⟨applies.length_le, ?_⟩
  intro position inside
  cases fit with
  | plain =>
      right
      obtain ⟨rest, whole⟩ := applies
      rw [← whole, List.getElem?_append_left inside]
  | blanked opened =>
      obtain ⟨-, -, empty, -, agree⟩ := applies
      by_cases here : position = opened
      · left
        rw [here, empty]
      · right
        exact agree position inside here

/-- A pattern speaks for a request exactly if it matches and the request fills at most one of its
open segments. -/
theorem exists_applies_iff :
    (∃ fit : Fit, fit.Applies request pattern) ↔
      Matches pattern request ∧ ∀ first second, Fills pattern request first →
        Fills pattern request second → first = second := by
  constructor
  · intro spoken
    obtain ⟨fit, applies⟩ := spoken
    refine ⟨applies.matches, ?_⟩
    intro first second fills fills'
    have same := applies.eq_blanked fills
    rw [applies.eq_blanked fills', blanked.injEq] at same
    exact same.symm
  · intro both
    obtain ⟨matched, single⟩ := both
    -- The one filled position is the one to open; without any the pattern stands as it is written.
    by_cases filled : ∃ position, Fills pattern request position
    · obtain ⟨position, fills⟩ := filled
      refine ⟨.blanked position, matched.1, fills.lt_length, fills.1, fills.2, ?_⟩
      intro other inside elsewhere
      apply matched.agree inside
      intro fills'
      exact elsewhere (single other position fills' fills)
    · refine ⟨.plain, ?_⟩
      show pattern <+: request
      rw [List.prefix_iff_getElem?]
      intro position inside
      rw [← matched.agree inside fun fills => filled ⟨position, fills⟩,
        List.getElem?_eq_getElem inside]

end Fit

namespace Builder

variable {entry value : Value} {granted request : Statement}

/-- A single grant decides the requests on its app and permission that ask for its path. -/
theorem authorized_single_iff_mem (written : entry.statement? = some granted)
    (grant : granted.effect = .grant) (valid : value.statement? = some request)
    (app : granted.app = request.app)
    (named : granted.permission = request.permission ∨ granted.permission = wildcard) :
    ((empty.build [.list [entry]]).builder.tree.authorize value).authorized = true ↔
      granted.resource ∈ candidatePaths request.segments := by
  have asked : granted.key.Concerns request ↔
      granted.resource ∈ candidatePaths request.segments := by
    constructor
    · intro concerns
      exact concerns.2.1
    · intro candidate
      exact ⟨app, candidate, named⟩
  rw [Tree.authorize, valid]
  show (Tree.settle _ request).authorized = true ↔ _
  rw [Tree.authorized_settle, Tree.deciding?_of_single (effect?_build_single written), ← asked]
  split
  · rename_i concerns
    simp [grant, concerns]
  · rename_i concerns
    simp [concerns]

/-- A grant alone authorizes a request on its app and permission exactly if its segments match and
the request fills at most one segment that the grant leaves open. -/
theorem authorized_single_iff (written : entry.statement? = some granted)
    (grant : granted.effect = .grant) (valid : value.statement? = some request)
    (app : granted.app = request.app)
    (named : granted.permission = request.permission ∨ granted.permission = wildcard) :
    ((empty.buildValue (.list [.list [entry]])).builder.tree.authorize value).authorized = true ↔
      Matches granted.segments request.segments ∧
        ∀ first second, Fills granted.segments request.segments first →
          Fills granted.segments request.segments second → first = second := by
  have isPath := (Value.wellFormed_of_statement? written).path
  have isRequest := (Value.wellFormed_of_statement? valid).path
  rw [buildValue_list, authorized_single_iff_mem written grant valid app named,
    Statement.resource, mem_candidatePaths_iff isRequest isPath, Fit.exists_applies_iff]

/-- Of two open segments the request leaves one empty itself, and the grant is found. -/
theorem authorized_single_one_filled :
    ((empty.buildValue (.list [.list [.ofText "access@projects:::files"]])).builder.tree.authorize
      (.ofText "access@projects::7:files")).authorized = true := by
  have written : (Value.ofText "access@projects:::files").statement? =
      some ⟨.grant, "access", "projects", ["", "", "files"]⟩ := by decide
  have valid : (Value.ofText "access@projects::7:files").statement? =
      some ⟨.grant, "access", "projects", ["", "7", "files"]⟩ := by decide
  have matched : Matches ["", "", "files"] ["", "7", "files"] := by decide
  have second : ∀ position < 3, Fills ["", "", "files"] ["", "7", "files"] position →
      position = 1 := by decide
  apply (authorized_single_iff written rfl valid rfl (Or.inl rfl)).mpr
  refine ⟨matched, ?_⟩
  intro position other fills fills'
  rw [second position fills.lt_length fills, second other fills'.lt_length fills']

/-- A request that fills two open segments matches the grant, but is not authorized. -/
theorem not_authorized_of_two_filled :
    let entry := Value.ofText "access@projects:::files"
    let value := Value.ofText "access@projects:42:7:files"
    entry.statement? = some ⟨.grant, "access", "projects", ["", "", "files"]⟩ ∧
      value.statement? = some ⟨.grant, "access", "projects", ["42", "7", "files"]⟩ ∧
      Matches ["", "", "files"] ["42", "7", "files"] ∧
      ((empty.buildValue (.list [.list [entry]])).builder.tree.authorize value).authorized =
        false := by
  intro entry value
  exact ⟨by decide, by decide, by decide, by decide⟩

end Builder

end Permits
