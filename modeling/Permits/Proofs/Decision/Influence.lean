import Permits.Proofs.Decision.Deciding
import Permits.Proofs.Tree.Compaction

set_option autoImplicit false

namespace Permits

/-- An effect that stays as it is, or becomes the given one. -/
def Leans (effect : Effect) (before after : Option Effect) : Prop :=
  after = before ∨ after = some effect

namespace Leans

variable {effect : Effect} {first first' second second' : Option Effect}

theorem refl (effect : Effect) (effect? : Option Effect) : Leans effect effect? effect? :=
  Or.inl rfl

theorem permissive (effect : Effect) (first second : Option Effect) :
    Leans effect (permissive first second)
      (Permits.permissive first (Permits.permissive (some effect) second)) := by
  cases effect with
  | grant =>
      right
      rw [permissive_grant_left, permissive_eq_grant_iff]
      exact Or.inr rfl
  | deny =>
      rcases first with _ | _ | _ <;> rcases second with _ | _ | _ <;>
        simp [Leans, Permits.permissive]

theorem or (lead : Leans effect first first') (rest : Leans effect second second') :
    Leans effect (first.or second) (first'.or second') := by
  rcases lead with rfl | rfl
  · cases first' with
    | none => exact rest
    | some found => exact Or.inl rfl
  · exact Or.inr rfl

theorem stricter (exact : Leans effect first first') (star : Leans effect second second') :
    Leans effect (stricter first second) (Permits.stricter first' second') := by
  rcases exact with rfl | rfl <;> rcases star with rfl | rfl
  · exact refl effect _
  · rcases first' with _ | _ | _ <;> rcases second with _ | _ | _ <;> cases effect <;>
      simp [Leans, Permits.stricter]
  · rcases first with _ | _ | _ <;> rcases second' with _ | _ | _ <;> cases effect <;>
      simp [Leans, Permits.stricter]
  · cases effect <;> exact Or.inr rfl

/-- The first effect of a list leans where each of them does: one that stays lets the same later
one through, and one that turns is the first. -/
theorem findSome? {α : Type} {before after : α → Option Effect}
    (each : ∀ item, Leans effect (before item) (after item)) (items : List α) :
    Leans effect (items.findSome? before) (items.findSome? after) := by
  induction items with
  | nil => exact refl effect none
  | cons item rest ih =>
      rw [List.findSome?_cons, List.findSome?_cons]
      rcases each item with same | turned
      · rw [same]
        cases before item with
        | none => exact ih
        | some found => exact refl effect _
      · rw [turned]
        exact Or.inr rfl

end Leans

namespace Tree

variable {effect : Effect} {tree other : Tree}

theorem leans_deciding?
    (each : ∀ key, Leans effect (tree.effect? key) (other.effect? key)) (request : Statement) :
    Leans effect ((tree.deciding? request).map Prod.snd)
      ((other.deciding? request).map Prod.snd) := by
  rw [deciding?, deciding?, List.map_findSome?, List.map_findSome?]
  apply Leans.findSome?
  intro path
  rw [Function.comp_apply, Function.comp_apply, decidingAt?_effect, decidingAt?_effect]
  exact (each _).stricter (each _)

/-- Effects that lean to a grant keep what is authorized, and effects that lean to a denial keep
what is not. -/
theorem authorized_of_leans
    (each : ∀ key, Leans effect (tree.effect? key) (other.effect? key)) (value : Value) :
    (effect = .grant → (tree.authorize value).authorized = true →
        (other.authorize value).authorized = true) ∧
      (effect = .deny → (tree.authorize value).authorized = false →
        (other.authorize value).authorized = false) := by
  unfold authorize
  cases value.statement? with
  | none => exact ⟨fun _ before => before, fun _ before => before⟩
  | some request =>
      simp only [← Bool.not_eq_true, authorized_settle]
      rcases leans_deciding? each request with same | turned
      · rw [same]
        exact ⟨fun _ before => before, fun _ before => before⟩
      · rw [turned]
        refine ⟨?_, ?_⟩
        · intro grant _
          rw [grant]
        · intro deny _ granted
          rw [deny] at granted
          cases granted

end Tree

/-- Blocks before and after one more entry: at any position of one block, or as a block of its own
at any position among the blocks. -/
inductive Inserted (entry : Value) : List Value → List Value → Prop
  | inside (before after front back : List Value) :
      Inserted entry (before ++ [.list (front ++ back)] ++ after)
        (before ++ [.list (front ++ entry :: back)] ++ after)
  | alone (before after : List Value) :
      Inserted entry (before ++ [] ++ after) (before ++ [.list [entry]] ++ after)

section Insertion

variable {entry : Value} {statement : Statement} (valid : entry.statement? = some statement)

include valid

theorem leans_verdict? (key : Key) (front back : List Value) :
    Leans statement.effect (verdict? key ((front ++ back).filterMap Value.statement?))
      (verdict? key ((front ++ entry :: back).filterMap Value.statement?)) := by
  rw [List.filterMap_append, List.filterMap_append, List.filterMap_cons_some valid,
    verdict?_append, verdict?_append, verdict?]
  split
  · exact Leans.permissive _ _ _
  · exact Leans.refl _ _

/-- An insertion changes only what stands between two lists of blocks, and can be read. -/
theorem Inserted.exists_parts {blocks extended : List Value}
    (inserted : Inserted entry blocks extended) :
    ∃ before first second after : List Value,
      blocks = before ++ first ++ after ∧ extended = before ++ second ++ after ∧
        Readable first ∧ Readable second ∧
        ∀ key, Leans statement.effect (lastVerdict? key (reached first))
          (lastVerdict? key (reached second)) := by
  cases inserted with
  | inside before after front back =>
      refine ⟨before, _, _, after, rfl, rfl, by simp [Readable, Value.parts?],
        by simp [Readable, Value.parts?], ?_⟩
      intro key
      exact leans_verdict? valid key front back
  | alone before after =>
      refine ⟨before, _, _, after, rfl, rfl, by simp [Readable],
        by simp [Readable, Value.parts?], ?_⟩
      intro key
      exact leans_verdict? valid key [] []

theorem leans_lastVerdict? {blocks extended : List Value}
    (inserted : Inserted entry blocks extended) (key : Key) :
    Leans statement.effect (lastVerdict? key (reached blocks))
      (lastVerdict? key (reached extended)) := by
  obtain ⟨before, first, second, after, rfl, rfl, readable, readable', leans⟩ :=
    inserted.exists_parts valid
  -- Behind a block that cannot be read nothing is read, so the insertion does not show.
  by_cases start : Readable before
  · simp only [List.append_assoc, reached_append _ start, reached_append _ readable,
      reached_append _ readable', lastVerdict?_append]
    exact ((Leans.refl _ _).or (leans key)).or (Leans.refl _ _)
  · simp only [List.append_assoc, reached_append_of_not _ start]
    exact Leans.refl _ _

end Insertion

namespace Builder

/-- One more statement, wherever it is put among the blocks: a grant leaves authorized what was
authorized, and a denial leaves unauthorized what was not. -/
theorem authorized_of_inserted {entry : Value} {statement : Statement}
    (valid : entry.statement? = some statement) {blocks extended : List Value}
    (inserted : Inserted entry blocks extended) :
    let before := empty.buildValue (.list blocks)
    let after := empty.buildValue (.list extended)
    after.fault = before.fault ∧ ∀ request : Value,
      (statement.effect = .grant → (before.builder.tree.authorize request).authorized = true →
        (after.builder.tree.authorize request).authorized = true) ∧
      (statement.effect = .deny → (before.builder.tree.authorize request).authorized = false →
        (after.builder.tree.authorize request).authorized = false) := by
  intro before after
  simp only [before, after, buildValue_list]
  constructor
  · obtain ⟨front, first, second, back, rfl, rfl, readable, readable', -⟩ :=
      inserted.exists_parts valid
    exact build_fault_congr front back readable' readable
  · intro request
    apply Tree.authorized_of_leans
    intro key
    rw [effect?_build, effect?_build]
    exact leans_lastVerdict? valid inserted key

/-- A grant put in front of a denial in its block decides where the app's own grant decided before,
and the request stays authorized. -/
theorem authorized_of_inserted_open_path :
    let blocks := textBlocks [["access@projects"], ["-access@projects:42"]]
    let extended := textBlocks [["access@projects"],
      ["access@projects::files", "-access@projects:42"]]
    Inserted (.ofText "access@projects::files") blocks extended ∧
      ((empty.buildValue (.list blocks)).builder.tree.authorize
        (.ofText "access@projects:7:files")).authorized = true ∧
      ((empty.buildValue (.list extended)).builder.tree.authorize
        (.ofText "access@projects:7:files")).authorized = true := by
  intro blocks extended
  have valid : (Value.ofText "access@projects::files").statement? =
      some ⟨.grant, "access", "projects", ["", "files"]⟩ := by decide
  have inserted : Inserted (.ofText "access@projects::files") blocks extended :=
    .inside [.list [.ofText "access@projects"]] [] [] [.ofText "-access@projects:42"]
  have before : ((empty.buildValue (.list blocks)).builder.tree.authorize
      (.ofText "access@projects:7:files")).authorized = true := by decide
  exact ⟨inserted, before, ((authorized_of_inserted valid inserted).2 _).1 rfl before⟩

end Builder

end Permits
