import Mathlib.Data.List.Basic
import Permits.Proofs.Decision.Report

set_option autoImplicit false

namespace Permits

/-- Whether a request asks for a place. -/
def Key.Concerns (key : Key) (request : Statement) : Prop :=
  key.app = request.app ∧ key.resource ∈ candidatePaths request.segments ∧
    (key.permission = request.permission ∨ key.permission = wildcard)

instance decidableConcerns (key : Key) (request : Statement) : Decidable (key.Concerns request) :=
  inferInstanceAs (Decidable (_ ∧ _ ∧ (_ ∨ _)))

/-- The stricter of two effects; where there is only one, that one. -/
def stricter (first second : Option Effect) : Option Effect :=
  if first = some .deny ∨ second = some .deny then some .deny else first.or second

theorem stricter_eq_none_iff (first second : Option Effect) :
    stricter first second = none ↔ first = none ∧ second = none := by
  rcases first with _ | _ | _ <;> rcases second with _ | _ | _ <;> decide

section SettleBy

variable {effect? : String → Option Effect} {permission name : String} {effect : Effect}

theorem settleBy_eq_some (settled : settleBy effect? permission = some (name, effect)) :
    effect? name = some effect ∧ (name = permission ∨ name = wildcard) := by
  have listed := List.mem_of_find?_eq_some settled
  simp only [List.mem_cons, Prod.mk.injEq, List.not_mem_nil, or_false] at listed
  refine ⟨Permissions.find?_of_settleBy settled, ?_⟩
  rcases listed with exact | star | exact | star
  · exact Or.inl exact.1
  · exact Or.inr star.1
  · exact Or.inl exact.1
  · exact Or.inr star.1

/-- The effect that settles a permission is the stricter one of its name and the star. -/
theorem settleBy_effect (effect? : String → Option Effect) (permission : String) :
    (settleBy effect? permission).map Prod.snd =
      stricter (effect? permission) (effect? wildcard) := by
  unfold settleBy
  rcases named : effect? permission with _ | _ | _ <;>
    rcases starred : effect? wildcard with _ | _ | _ <;> simp [named, starred, stricter]

theorem settleBy_eq_none_iff :
    settleBy effect? permission = none ↔
      effect? permission = none ∧ effect? wildcard = none := by
  rw [← stricter_eq_none_iff, ← settleBy_effect, Option.map_eq_none_iff]

theorem settleBy_congr {other? : String → Option Effect}
    (named : effect? permission = other? permission)
    (starred : effect? wildcard = other? wildcard) :
    settleBy effect? permission = settleBy other? permission := by
  simp only [settleBy, List.find?_cons, List.find?_nil, named, starred]

end SettleBy

def Decision.byPlace (settled : Key × Effect) : Decision :=
  .settled settled.2 settled.1.permission settled.1.app settled.1.resource

namespace Tree

/-- The place on one path that settles a request, with the effect there. -/
def decidingAt? (tree : Tree) (request : Statement) (path : String) : Option (Key × Effect) :=
  (settleBy (fun name => tree.effect? ⟨request.app, path, name⟩) request.permission).map
    fun ruled => (⟨request.app, path, ruled.1⟩, ruled.2)

/-- The place that decides a request, with the effect there. -/
def deciding? (tree : Tree) (request : Statement) : Option (Key × Effect) :=
  (candidatePaths request.segments).findSome? (tree.decidingAt? request)

variable {tree other : Tree} {request : Statement} {key : Key} {effect : Effect}

theorem decidingAt?_eq_some {path : String}
    (settled : tree.decidingAt? request path = some (key, effect)) :
    tree.effect? key = some effect ∧ key.app = request.app ∧ key.resource = path ∧
      (key.permission = request.permission ∨ key.permission = wildcard) := by
  obtain ⟨⟨name, ruled⟩, found, same⟩ := Option.map_eq_some_iff.mp settled
  rw [Prod.mk.injEq] at same
  obtain ⟨rfl, rfl⟩ := same
  obtain ⟨held, named⟩ := settleBy_eq_some found
  exact ⟨held, rfl, rfl, named⟩

theorem decidingAt?_eq_none_iff {path : String} :
    tree.decidingAt? request path = none ↔
      tree.effect? ⟨request.app, path, request.permission⟩ = none ∧
        tree.effect? ⟨request.app, path, wildcard⟩ = none := by
  rw [decidingAt?, Option.map_eq_none_iff, settleBy_eq_none_iff]

theorem decidingAt?_effect (tree : Tree) (request : Statement) (path : String) :
    (tree.decidingAt? request path).map Prod.snd =
      stricter (tree.effect? ⟨request.app, path, request.permission⟩)
        (tree.effect? ⟨request.app, path, wildcard⟩) := by
  rw [decidingAt?, Option.map_map,
    ← settleBy_effect (fun name => tree.effect? ⟨request.app, path, name⟩)]
  rfl

theorem deciding?_eq_some (decided : tree.deciding? request = some (key, effect)) :
    key.Concerns request ∧ tree.effect? key = some effect := by
  obtain ⟨path, candidate, settled⟩ := List.exists_of_findSome?_eq_some decided
  obtain ⟨held, app, resource, named⟩ := decidingAt?_eq_some settled
  exact ⟨⟨app, resource ▸ candidate, named⟩, held⟩

/-- Nothing decides a request exactly if nothing is settled at the places that it asks for. -/
theorem deciding?_eq_none_iff :
    tree.deciding? request = none ↔
      ∀ key : Key, key.Concerns request → tree.effect? key = none := by
  rw [deciding?, List.findSome?_eq_none_iff]
  constructor
  · intro silent key asked
    obtain ⟨app, path, permission⟩ := key
    obtain ⟨rfl, candidate, named⟩ := asked
    have unsettled := decidingAt?_eq_none_iff.mp (silent path candidate)
    rcases named with rfl | rfl
    · exact unsettled.1
    · exact unsettled.2
  · intro unset path candidate
    rw [decidingAt?_eq_none_iff]
    exact ⟨unset _ ⟨rfl, candidate, Or.inl rfl⟩, unset _ ⟨rfl, candidate, Or.inr rfl⟩⟩

theorem deciding?_congr
    (same : ∀ key : Key, key.Concerns request → tree.effect? key = other.effect? key) :
    tree.deciding? request = other.deciding? request := by
  rw [deciding?, deciding?, ← List.head?_filterMap, ← List.head?_filterMap]
  congr 1
  apply List.filterMap_congr
  intro path candidate
  rw [decidingAt?, decidingAt?]
  congr 1
  apply settleBy_congr
  · exact same _ ⟨rfl, candidate, Or.inl rfl⟩
  · exact same _ ⟨rfl, candidate, Or.inr rfl⟩

theorem deciding?_of_single
    (only : ∀ place : Key, tree.effect? place = if key = place then some effect else none)
    (request : Statement) :
    tree.deciding? request = if key.Concerns request then some (key, effect) else none := by
  split
  · rename_i asked
    cases decided : tree.deciding? request with
    | none =>
        have unset := deciding?_eq_none_iff.mp decided key asked
        rw [only, if_pos rfl] at unset
        cases unset
    | some settled =>
        obtain ⟨place, held⟩ := settled
        have found := (deciding?_eq_some decided).2
        rw [only] at found
        split at found
        · rename_i same
          rw [← same, ← Option.some.inj found]
        · cases found
  · rename_i unasked
    rw [deciding?_eq_none_iff]
    intro place asked
    rw [only, if_neg]
    intro same
    exact unasked (same ▸ asked)

theorem effect?_eq_none_of_unknown (unknown : tree.find? key.app = none) :
    tree.effect? key = none := by
  rw [effect?, unknown]
  rfl

/-- A decision is the one by the place that decides. Without such a place it only matters whether
the app is known. -/
theorem settle_eq_deciding (tree : Tree) (request : Statement) :
    tree.settle request = ((tree.deciding? request).map Decision.byPlace).getD
      (if request.app ∈ Table.names tree then .unsettled else .unknownApp request.app) := by
  unfold settle
  cases known : tree.find? request.app with
  | none =>
      have silent : tree.deciding? request = none := by
        rw [deciding?_eq_none_iff]
        intro key asked
        exact effect?_eq_none_of_unknown (asked.1 ▸ known)
      rw [silent, if_neg ((Table.find?_eq_none_iff tree request.app).mp known)]
      rfl
  | some resources =>
      -- The look-up of the app is made once there and on every path here.
      have onPath : resources.settleAt? request.app request.permission =
          Option.map Decision.byPlace ∘ tree.decidingAt? request := by
        funext path
        rw [Function.comp_apply, decidingAt?, Option.map_map, Resources.settleAt?]
        simp only [effect?, known, Option.bind_some]
        cases resources.find? path <;> rfl
      rw [if_pos (Table.mem_names_of_find? known), deciding?, List.map_findSome?]
      exact congrArg (fun lookup => (List.findSome? lookup _).getD Decision.unsettled) onPath

theorem settle_eq_unknownApp_iff (tree : Tree) (request : Statement) :
    tree.settle request = .unknownApp request.app ↔ request.app ∉ Table.names tree := by
  rw [settle_eq_deciding]
  cases decided : tree.deciding? request with
  | none => split <;> simp_all
  | some settled =>
      obtain ⟨key, effect⟩ := settled
      obtain ⟨asked, held⟩ := deciding?_eq_some decided
      have known : request.app ∈ Table.names tree := by
        by_contra unknown
        rw [← asked.1, ← Table.find?_eq_none_iff] at unknown
        rw [effect?_eq_none_of_unknown unknown] at held
        cases held
      simp [Decision.byPlace, known]

theorem ok_settle (tree : Tree) (request : Statement) : (tree.settle request).report.ok = true := by
  rw [settle_eq_deciding]
  cases tree.deciding? request with
  | none => split <;> rfl
  | some settled => rfl

theorem authorized_settle (tree : Tree) (request : Statement) :
    (tree.settle request).authorized = true ↔
      (tree.deciding? request).map Prod.snd = some .grant := by
  rw [settle_eq_deciding]
  cases tree.deciding? request with
  | none => split <;> simp [Decision.authorized, Decision.report]
  | some settled => simp [Decision.byPlace, Decision.authorized, Decision.report]

theorem names_report_authorize_iff {value : Value} (valid : value.statement? = some request)
    (tree : Tree) (text : String) :
    (tree.authorize value).report.Names text ↔ ∃ key effect,
      tree.deciding? request = some (key, effect) ∧
        text = composeStatement effect.sign key.permission key.app key.resource := by
  rw [Decision.names_report_iff, authorize, valid]
  change (tree.settle request).statement? = some text ↔ _
  rw [settle_eq_deciding]
  cases tree.deciding? request with
  | none => split <;> simp [Decision.statement?]
  | some settled =>
      obtain ⟨key, effect⟩ := settled
      simp only [Option.map_some, Option.getD_some, Decision.byPlace, Decision.statement?,
        Option.some.injEq, Prod.mk.injEq]
      constructor
      · intro same
        exact ⟨key, effect, ⟨rfl, rfl⟩, same.symm⟩
      · intro named
        obtain ⟨_, _, ⟨rfl, rfl⟩, same⟩ := named
        exact same.symm

end Tree

end Permits
