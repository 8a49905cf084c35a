import Mathlib.Data.Finset.Max
import Permits.Decision.Basic
import Permits.Proofs.Decision.Specificity
import Permits.Proofs.Tree.Shape

set_option autoImplicit false

namespace Permits

namespace Permissions

/-- Whether a path settles a permission, by its name or by the star. -/
def Holds (permissions : Permissions) (permission : String) : Prop :=
  permission ∈ Table.names permissions ∨ wildcard ∈ Table.names permissions

/-- The name and the effect by which a path that holds a permission settles it. -/
def ruling (permissions : Permissions) (permission : String) : String × Effect :=
  if permissions.find? permission = some .deny then (permission, .deny)
  else if permissions.find? wildcard = some .deny then (wildcard, .deny)
  else if permissions.find? permission = some .grant then (permission, .grant)
  else (wildcard, .grant)

variable {permissions : Permissions} {permission : String}

theorem holds_iff : permissions.Holds permission ↔
    permissions.find? permission ≠ none ∨ permissions.find? wildcard ≠ none := by
  rw [Holds, Ne, Ne, Table.find?_eq_none_iff, Table.find?_eq_none_iff, not_not, not_not]

/-- Asking in order for a denial, by name and then by the star, and then for a grant in the same
way, gives the ruling. -/
theorem settleBy_of_holds (holds : permissions.Holds permission) :
    settleBy permissions.find? permission = some (permissions.ruling permission) := by
  rw [holds_iff] at holds
  unfold settleBy ruling
  cases named : permissions.find? permission with
  | none =>
      cases starred : permissions.find? wildcard with
      | none => simp [named, starred] at holds
      | some effect => cases effect <;> simp [named, starred]
  | some effect =>
      cases effect with
      | deny => simp [named]
      | grant =>
          by_cases denied : permissions.find? wildcard = some .deny
          · simp [named, denied]
          · simp [named, denied]

theorem find?_of_settleBy {effect? : String → Option Effect} {name : String} {effect : Effect}
    (settled : settleBy effect? permission = some (name, effect)) : effect? name = some effect := by
  simpa using List.find?_some settled

theorem settleBy_of_not_holds (silent : ¬ permissions.Holds permission) :
    settleBy permissions.find? permission = none := by
  rw [holds_iff, not_or, Ne, Ne, not_not, not_not] at silent
  simp [settleBy, silent.1, silent.2]

end Permissions

theorem exists_highest (taken : Nat × Fit → Prop) {listed : List (Nat × Fit)} {slot : Nat × Fit}
    (inside : slot ∈ listed) (held : taken slot) :
    ∃ top ∈ listed, taken top ∧
      ∀ other ∈ listed, taken other → other.2.rank other.1 ≤ top.2.rank top.1 := by
  classical
  have nonempty : (listed.toFinset.filter taken).Nonempty := by
    refine ⟨slot, ?_⟩
    rw [Finset.mem_filter, List.mem_toFinset]
    exact ⟨inside, held⟩
  obtain ⟨top, member, highest⟩ :=
    Finset.exists_max_image _ (fun slot => slot.2.rank slot.1) nonempty
  rw [Finset.mem_filter, List.mem_toFinset] at member
  refine ⟨top, member.1, member.2, ?_⟩
  intro other otherInside otherHeld
  apply highest other
  rw [Finset.mem_filter, List.mem_toFinset]
  exact ⟨otherInside, otherHeld⟩

/-- An entry that speaks for a request and holds its permission. -/
structure Speaks (request : Statement) (entry : String × Permissions) (fit : Fit) : Prop where
  applies : fit.Applies request.segments (pathSegments entry.1)
  holds : entry.2.Holds request.permission

namespace Resources

/-- The entry of the highest rank among those that speak for a request. -/
structure Decides (resources : Resources) (request : Statement) (entry : String × Permissions)
    (fit : Fit) : Prop where
  present : entry ∈ resources
  speaks : Speaks request entry fit
  highest : ∀ other ∈ resources, ∀ otherFit, Speaks request other otherFit →
    otherFit.rank (pathSegments other.1).length ≤ fit.rank (pathSegments entry.1).length

variable {resources : Resources} {request : Statement} {entry : String × Permissions} {fit : Fit}

theorem settleAt?_of_mem (good : resources.WellFormed) (present : entry ∈ resources)
    (app permission : String) :
    resources.settleAt? app permission entry.1 =
      (settleBy entry.2.find? permission).map fun ruled =>
        .settled ruled.2 ruled.1 app entry.1 := by
  rw [settleAt?, Table.find?_of_mem good.unique present]
  rfl

theorem exists_of_settleAt? {app permission path : String}
    (settled : resources.settleAt? app permission path ≠ none) :
    ∃ permissions, (path, permissions) ∈ resources ∧
      Permissions.Holds permissions permission := by
  rw [settleAt?] at settled
  cases found : resources.find? path with
  | none => simp [found] at settled
  | some permissions =>
      refine ⟨permissions, Table.mem_of_find? found, ?_⟩
      by_contra silent
      simp [found, Permissions.settleBy_of_not_holds silent] at settled

theorem stored_of_settleAt? (good : resources.WellFormed) {app permission path : String}
    (settled : resources.settleAt? app permission path ≠ none) :
    IsPath (pathSegments path) ∧ joinPath (pathSegments path) = path := by
  obtain ⟨permissions, present, -⟩ := exists_of_settleAt? settled
  exact good.isPath present

theorem eq_of_pathSegments (good : resources.WellFormed) (present : entry ∈ resources)
    {other : String × Permissions} (alsoPresent : other ∈ resources)
    (same : pathSegments entry.1 = pathSegments other.1) : entry = other := by
  have path : entry.1 = other.1 := by
    rw [← (good.isPath present).2, same, (good.isPath alsoPresent).2]
  have found := Table.find?_of_mem good.unique present
  have alsoFound := Table.find?_of_mem good.unique alsoPresent
  rw [path, alsoFound] at found
  exact Prod.ext path (Option.some.inj found).symm

theorem rank_eq_iff (good : resources.WellFormed) {other : String × Permissions} {otherFit : Fit}
    (present : entry ∈ resources) (alsoPresent : other ∈ resources)
    (applies : fit.Applies request.segments (pathSegments entry.1))
    (otherApplies : otherFit.Applies request.segments (pathSegments other.1)) :
    fit.rank (pathSegments entry.1).length = otherFit.rank (pathSegments other.1).length ↔
      entry = other := by
  constructor
  · intro same
    exact eq_of_pathSegments good present alsoPresent (applies.eq_of_rank otherApplies same)
  · intro same
    subst same
    rw [applies.unique otherApplies]

/-- In place of an entry that speaks plainly decides at most a longer one that speaks plainly as
well, or one that is longer by two segments at least. -/
theorem Decides.eq_or_longer (good : resources.WellFormed)
    (decides : resources.Decides request entry fit) {plainly : String × Permissions}
    (present : plainly ∈ resources) (speaks : Speaks request plainly .plain) :
    entry = plainly ∨
      fit = .plain ∧ (pathSegments plainly.1).length < (pathSegments entry.1).length ∨
      (pathSegments plainly.1).length + 1 < (pathSegments entry.1).length := by
  have above := decides.highest plainly present .plain speaks
  cases fit with
  | plain =>
      rcases Nat.lt_or_eq_of_le (Fit.plain_le_plain.mp above) with longer | same
      · exact Or.inr (Or.inl ⟨rfl, longer⟩)
      · left
        apply (rank_eq_iff good decides.present present decides.speaks.applies speaks.applies).mp
        rw [same]
  | blanked position =>
      have longer := Fit.plain_le_blanked.mp above
      right
      right
      omega

theorem exists_decides (good : resources.WellFormed) (present : entry ∈ resources)
    (speaks : Speaks request entry fit) :
    ∃ entry fit, resources.Decides request entry fit := by
  have inside := mem_slots_of_applies speaks.applies (good.isPath present).1
  have taken : ∃ entry' ∈ resources, Speaks request entry' fit ∧
      (pathSegments entry'.1).length = (pathSegments entry.1).length :=
    ⟨entry, present, speaks, rfl⟩
  obtain ⟨slot, -, ⟨top, topPresent, topSpeaks, size⟩, highest⟩ :=
    exists_highest (fun slot => ∃ entry ∈ resources, Speaks request entry slot.2 ∧
      (pathSegments entry.1).length = slot.1) inside taken
  refine ⟨top, slot.2, topPresent, topSpeaks, ?_⟩
  intro other otherPresent otherFit otherSpeaks
  have otherInside := mem_slots_of_applies otherSpeaks.applies (good.isPath otherPresent).1
  rw [size]
  exact highest _ otherInside ⟨other, otherPresent, otherSpeaks, rfl⟩

theorem findSome?_of_decides (good : resources.WellFormed) (isPath : IsPath request.segments)
    (decides : resources.Decides request entry fit) :
    (candidatePaths request.segments).findSome?
        (resources.settleAt? request.app request.permission) =
      some (.settled (entry.2.ruling request.permission).2 (entry.2.ruling request.permission).1
        request.app entry.1) := by
  obtain ⟨present, speaks, highest⟩ := decides
  obtain ⟨isEntry, written⟩ := good.isPath present
  apply findSome?_candidatePaths isPath (fun _ => stored_of_settleAt? good) isEntry speaks.applies
  · intro other otherFit isOther otherApplies settled
    obtain ⟨permissions, otherPresent, holds⟩ := exists_of_settleAt? settled
    have segments : pathSegments (joinPath other) = other := isOther.pathSegments_joinPath
    have below := highest _ otherPresent otherFit ⟨by rwa [segments], holds⟩
    rwa [segments] at below
  · rw [written, settleAt?_of_mem good present, Permissions.settleBy_of_holds speaks.holds]
    rfl

theorem findSome?_of_silent (good : resources.WellFormed) (isPath : IsPath request.segments)
    (silent : ∀ entry ∈ resources, ∀ fit, ¬ Speaks request entry fit) :
    (candidatePaths request.segments).findSome?
      (resources.settleAt? request.app request.permission) = none := by
  apply findSome?_candidatePaths_eq_none isPath (fun _ => stored_of_settleAt? good)
  intro path fit isEntry applies
  by_contra settled
  obtain ⟨permissions, present, holds⟩ := exists_of_settleAt? settled
  refine silent _ present fit ⟨?_, holds⟩
  rwa [isEntry.pathSegments_joinPath]

end Resources

namespace Tree

variable {tree : Tree} {resources : Resources} {request : Statement}
  {entry : String × Permissions} {fit : Fit}

theorem settle_of_decides (good : tree.WellFormed) (isPath : IsPath request.segments)
    (known : tree.find? request.app = some resources)
    (decides : resources.Decides request entry fit) :
    tree.settle request = .settled (entry.2.ruling request.permission).2
      (entry.2.ruling request.permission).1 request.app entry.1 := by
  rw [settle, known]
  show Option.getD _ _ = _
  rw [Resources.findSome?_of_decides (good.find? known) isPath decides, Option.getD_some]

theorem settle_of_silent (good : tree.WellFormed) (isPath : IsPath request.segments)
    (known : tree.find? request.app = some resources)
    (silent : ∀ entry ∈ resources, ∀ fit, ¬ Speaks request entry fit) :
    tree.settle request = .unsettled := by
  rw [settle, known]
  show Option.getD _ _ = _
  rw [Resources.findSome?_of_silent (good.find? known) isPath silent, Option.getD_none]

end Tree

theorem Decision.report_settled (effect : Effect) (permission app path : String) :
    (Decision.settled effect permission app path).report =
      ⟨true, effect = .grant, some ("The permission " ++
        composeStatement effect.sign permission app path ++
        (if effect = .grant then " grants access" else " blocks access")), none⟩ := by
  have ending : " " ++ verb effect ++ " access" =
      if effect = .grant then " grants access" else " blocks access" := by
    cases effect <;> decide
  rw [report, ← ending]
  simp only [String.append_assoc]

namespace Builder

/-- A valid request on a known app. Among the entries that speak for it, which their ranks tell
apart, the highest one decides by its ruling, and the message names the statement that rules.
An entry that speaks plainly only gives way to longer ones. -/
theorem authorize_run (calls : List Call) (value : Value) (request : Statement)
    (resources : Resources) (valid : value.statement? = some request)
    (known : (empty.run calls).tree.find? request.app = some resources) :
    (∀ first ∈ resources, ∀ second ∈ resources, ∀ firstFit secondFit : Fit,
        firstFit.Applies request.segments (pathSegments first.1) →
        secondFit.Applies request.segments (pathSegments second.1) →
        (firstFit.rank (pathSegments first.1).length =
          secondFit.rank (pathSegments second.1).length ↔ first = second)) ∧
      ((∀ entry ∈ resources, ∀ fit, ¬ Speaks request entry fit) →
        ((empty.run calls).tree.authorize value).report =
          ⟨true, false, some "No authorization was found for this resource", none⟩) ∧
      ((∃ entry ∈ resources, ∃ fit, Speaks request entry fit) →
        ∃ entry fit, resources.Decides request entry fit) ∧
      (∀ entry fit, resources.Decides request entry fit →
        let ruling := entry.2.ruling request.permission
        entry.2.find? ruling.1 = some ruling.2 ∧
          ((empty.run calls).tree.authorize value).report =
            ⟨true, ruling.2 = .grant, some ("The permission " ++
              composeStatement ruling.2.sign ruling.1 request.app entry.1 ++
              (if ruling.2 = .grant then " grants access" else " blocks access")), none⟩) ∧
      (∀ plainly ∈ resources, Speaks request plainly .plain →
        ∀ entry fit, resources.Decides request entry fit → entry = plainly ∨
          fit = .plain ∧ (pathSegments plainly.1).length < (pathSegments entry.1).length ∨
          (pathSegments plainly.1).length + 1 < (pathSegments entry.1).length) := by
  have good : resources.WellFormed := (Tree.wellFormed_run calls).find? known
  have isPath : IsPath request.segments := (Value.wellFormed_of_statement? valid).path
  have asked : (empty.run calls).tree.authorize value =
      ((candidatePaths request.segments).findSome?
        (resources.settleAt? request.app request.permission)).getD .unsettled := by
    simp only [Tree.authorize, valid, Tree.settle, known]
  refine ⟨?_, ?_, ?_, ?_, ?_⟩
  · intro first firstPresent second secondPresent firstFit secondFit firstApplies secondApplies
    exact Resources.rank_eq_iff good firstPresent secondPresent firstApplies secondApplies
  · intro silent
    rw [asked, Resources.findSome?_of_silent good isPath silent]
    rfl
  · intro spoken
    obtain ⟨entry, present, fit, speaks⟩ := spoken
    exact Resources.exists_decides good present speaks
  · intro entry fit decides
    refine ⟨Permissions.find?_of_settleBy
      (Permissions.settleBy_of_holds decides.speaks.holds), ?_⟩
    rw [asked, Resources.findSome?_of_decides good isPath decides, Option.getD_some,
      Decision.report_settled]
  · intro plainly present speaks entry fit decides
    exact decides.eq_or_longer good present speaks

/-- A denial on one project stands against a grant that leaves the project open. -/
theorem authorize_run_denied :
    let calls : List Call := [.build (.list [.list [.ofText "access@projects::files",
      .ofText "-access@projects:42"]])]
    let denial : String × Permissions := ("42", [("access", .deny)])
    ∃ resources : Resources,
      (empty.run calls).tree.find? "projects" = some resources ∧
        resources.Decides ⟨.grant, "access", "projects", ["42", "files"]⟩ denial .plain ∧
        ((empty.run calls).tree.authorize (.ofText "access@projects:42:files")).report =
          ⟨true, false, some "The permission -access@projects:42 blocks access", none⟩ := by
  intro calls denial
  have known : (empty.run calls).tree.find? "projects" =
      some [(":files", [("access", .grant)]), ("", []), denial] := by decide
  have valid : (Value.ofText "access@projects:42:files").statement? =
      some ⟨.grant, "access", "projects", ["42", "files"]⟩ := by decide
  have decides : Resources.Decides [(":files", [("access", .grant)]), ("", []), denial]
      ⟨.grant, "access", "projects", ["42", "files"]⟩ denial .plain := by
    have size : (pathSegments denial.1).length = 1 := by decide
    refine ⟨by decide, ⟨by decide, .inl (by decide)⟩, ?_⟩
    intro other present otherFit speaks
    cases otherFit with
    | plain =>
        have short : ∀ other ∈ [(":files", [("access", Effect.grant)]), ("", []), denial],
            Fit.plain.Applies ["42", "files"] (pathSegments other.1) →
              (pathSegments other.1).length ≤ 1 := by decide
        rw [size, Fit.plain_le_plain]
        exact short other present speaks.applies
    | blanked position =>
        have atMost : (pathSegments other.1).length ≤ 2 := speaks.applies.length_le
        rw [size, Fit.blanked_le_plain]
        omega
  have decided := (authorize_run calls _ _ _ valid known).2.2.2.1 denial .plain decides
  exact ⟨_, known, decides, decided.2⟩

end Builder

end Permits
