import Permits.Decision.Foreign
import Permits.Proofs.Decision.Deciding

set_option autoImplicit false

namespace Permits

theorem Effect.ofSign?_eq_some_iff {text : String} {effect : Effect} :
    ofSign? text = some effect ↔ text = effect.sign := by
  constructor
  · intro read
    unfold ofSign? at read
    split at read
    · rename_i plus
      rw [plus, ← Option.some.inj read]
    · split at read
      · rename_i minus
        rw [minus, ← Option.some.inj read]
      · cases read
  · rintro rfl
    exact ofSign?_sign effect

theorem Value.effect?_eq_some_iff {value : Value} {effect : Effect} :
    value.effect? = some effect ↔ value = .ofText effect.sign := by
  unfold effect? ofText
  split
  · simp only [Effect.ofSign?_eq_some_iff, scalar.injEq, Scalar.text.injEq]
  · rename_i noText
    exact iff_of_false (fun found => nomatch found) (noText _)

/-- The first item that stops a scan, all those in front of it being passed, is the first of the
items or comes after it. -/
theorem exists_first_cons {α : Type} {passes stops : α → Prop} (item : α) (rest : List α) :
    (∃ before stop after, item :: rest = before ++ stop :: after ∧
        (∀ earlier ∈ before, passes earlier) ∧ stops stop) ↔
      stops item ∨ passes item ∧ ∃ before stop after, rest = before ++ stop :: after ∧
        (∀ earlier ∈ before, passes earlier) ∧ stops stop := by
  constructor
  · rintro ⟨before, stop, after, cut, passed, stopped⟩
    cases before with
    | nil =>
        rw [List.nil_append, List.cons.injEq] at cut
        exact Or.inl (cut.1 ▸ stopped)
    | cons first before =>
        rw [List.cons_append, List.cons.injEq] at cut
        rw [List.forall_mem_cons] at passed
        exact Or.inr ⟨cut.1 ▸ passed.1, before, stop, after, cut.2, passed.2, stopped⟩
  · rintro (stopped | ⟨passed, before, stop, after, rfl, passedRest, stopped⟩)
    · exact ⟨[], item, rest, rfl, fun _ earlier => (nomatch earlier), stopped⟩
    · exact ⟨item :: before, stop, after, rfl, List.forall_mem_cons.mpr ⟨passed, passedRest⟩,
        stopped⟩

namespace Slot

variable {α : Type}

/-- The table that a slot holds, if it holds one. -/
def table? : Slot α → Option (Table α)
  | table entries => some entries
  | _ => none

/-- A slot in whose table every name stands once, with something under it that has a property. -/
def Distinct (inner : α → Prop) : Slot α → Prop
  | table entries => (Table.names entries).Nodup ∧ ∀ entry ∈ entries, inner entry.2
  | _ => True

/-- What ends the search for a permission: something that is no table, or a table that gives an
effect to the permission or to the star. -/
inductive Ends (permission : String) : Slot Value → Prop
  | alien : Ends permission .alien
  | table {permissions : Table Value} {name : String} {effect : Effect}
      (named : name = permission ∨ name = wildcard)
      (given : permissions.find? name = some (.ofText effect.sign)) :
      Ends permission (.table permissions)

theorem ends_table_iff {permission : String} {permissions : Table Value} :
    Ends permission (.table permissions) ↔
      settleBy (fun name => (permissions.find? name).bind Value.effect?) permission ≠ none := by
  have given : ∀ name, (permissions.find? name).bind Value.effect? ≠ none ↔
      ∃ effect : Effect, permissions.find? name = some (.ofText effect.sign) := by
    intro name
    simp only [Option.ne_none_iff_exists', Option.bind_eq_some_iff, Value.effect?_eq_some_iff]
    simp only [exists_eq_right]
  rw [Ne, settleBy_eq_none_iff, not_and_or]
  constructor
  · intro ends
    cases ends with
    | table named found =>
        rcases named with rfl | rfl
        · exact Or.inl ((given _).mpr ⟨_, found⟩)
        · exact Or.inr ((given _).mpr ⟨_, found⟩)
  · rintro (own | star)
    · obtain ⟨effect, found⟩ := (given _).mp own
      exact .table (Or.inl rfl) found
    · obtain ⟨effect, found⟩ := (given _).mp star
      exact .table (Or.inr rfl) found

end Slot

namespace ForeignTree

/-- A tree in whose tables every name stands once. -/
def Distinct (tree : ForeignTree) : Prop :=
  Slot.Distinct (Slot.Distinct (Slot.Distinct fun _ => True)) tree

theorem find?_cleanPermissions {permissions : Table Value}
    (unique : (Table.names permissions).Nodup) (name : String) :
    (cleanPermissions permissions).find? name = (permissions.find? name).bind Value.effect? :=
  Table.find?_filterMap unique (fun _ _ => rfl) name

theorem find?_cleanResources {resources : Table (Slot Value)}
    (unique : (Table.names resources).Nodup) (path : String) :
    (cleanResources resources).find? path =
      ((resources.find? path).bind Slot.table?).map cleanPermissions := by
  rw [Option.map_bind]
  apply Table.find?_filterMap unique
  intro name slot
  cases slot <;> rfl

theorem find?_clean {apps : Table (Slot (Slot Value))} (unique : (Table.names apps).Nodup)
    (app : String) :
    (clean (.table apps)).find? app =
      ((apps.find? app).bind Slot.table?).map cleanResources := by
  rw [Option.map_bind]
  apply Table.find?_filterMap unique
  intro name slot
  cases slot <;> rfl

section Search

/-- Whether the search for a permission goes on behind a path. -/
def Passes (resources : Table (Slot Value)) (permission path : String) : Prop :=
  ∀ slot, resources.find? path = some slot → ¬ slot.Ends permission

variable {resources : Table (Slot Value)} {app permission : String}

/-- One step of the search. It goes on behind the path, or fails there, or decides there, and in
the first and the last case the clean paths of the app say the same. -/
theorem settleAmong_cons (distinct : Slot.Distinct (Slot.Distinct fun _ => True) (.table resources))
    (app permission path : String) (rest : List String) :
    (Passes resources permission path ∧
        settleAmong resources app permission (path :: rest) =
          settleAmong resources app permission rest ∧
        (cleanResources resources).settleAt? app permission path = none) ∨
      (resources.find? path = some .alien ∧
        settleAmong resources app permission (path :: rest) = .error .noTable) ∨
      (¬ Passes resources permission path ∧ resources.find? path ≠ some .alien ∧
        ∃ decision, settleAmong resources app permission (path :: rest) = .ok decision ∧
          (cleanResources resources).settleAt? app permission path = some decision) := by
  obtain ⟨unique, under⟩ := distinct
  rw [settleAmong, Resources.settleAt?, find?_cleanResources unique, Passes]
  cases found : resources.find? path with
  | none =>
      refine Or.inl ⟨?_, rfl, rfl⟩
      intro slot stored
      cases stored
  | some slot =>
      simp only [Option.some.injEq, forall_eq']
      cases slot with
      | absent =>
          refine Or.inl ⟨?_, rfl, rfl⟩
          intro ends
          cases ends
      | alien => exact Or.inr (Or.inl ⟨rfl, rfl⟩)
      | table permissions =>
          have uniqueNames := (under _ (Table.mem_of_find? found)).1
          have lookup : (fun name => (cleanPermissions permissions).find? name) =
              fun name => (permissions.find? name).bind Value.effect? :=
            funext (find?_cleanPermissions uniqueNames)
          simp only [Option.bind_some, Slot.table?, Option.map_some, lookup, Slot.ends_table_iff]
          cases settled : settleBy (fun name => (permissions.find? name).bind Value.effect?)
              permission with
          | none => exact Or.inl ⟨fun ends => ends rfl, rfl, rfl⟩
          | some ruled =>
              obtain ⟨name, effect⟩ := ruled
              refine Or.inr (Or.inr ⟨fun passes => ?_, by simp, _, rfl, rfl⟩)
              exact passes (Option.some_ne_none _)

/-- The search fails exactly if the first path that ends it holds something other than a table. -/
theorem settleAmong_eq_error_iff
    (distinct : Slot.Distinct (Slot.Distinct fun _ => True) (.table resources))
    (paths : List String) :
    settleAmong resources app permission paths = .error .noTable ↔
      ∃ before path after, paths = before ++ path :: after ∧
        (∀ earlier ∈ before, Passes resources permission earlier) ∧
        resources.find? path = some .alien := by
  induction paths with
  | nil => simp [settleAmong]
  | cons path rest ih =>
      rw [exists_first_cons]
      rcases settleAmong_cons distinct app permission path rest with
        ⟨passes, step, -⟩ | ⟨stored, step⟩ | ⟨ends, notAlien, decision, step, -⟩
      · have notAlien : resources.find? path ≠ some .alien := fun stored => passes _ stored .alien
        rw [step, ih]
        simp only [passes, notAlien, true_and, false_or]
      · rw [step]
        exact iff_of_true rfl (Or.inl stored)
      · rw [step]
        simp only [ends, notAlien, false_and, or_self, reduceCtorEq]

theorem settle_of_settleAmong
    (distinct : Slot.Distinct (Slot.Distinct fun _ => True) (.table resources))
    {paths : List String} {decision : Decision}
    (decided : settleAmong resources app permission paths = .ok decision) :
    (paths.findSome? ((cleanResources resources).settleAt? app permission)).getD .unsettled =
      decision := by
  induction paths with
  | nil => exact Except.ok.inj decided
  | cons path rest ih =>
      rw [List.findSome?_cons]
      rcases settleAmong_cons distinct app permission path rest with
        ⟨-, step, silent⟩ | ⟨-, step⟩ | ⟨-, -, found, step, settled⟩
      · rw [step] at decided
        rw [silent]
        exact ih decided
      · rw [step] at decided
        cases decided
      · rw [step] at decided
        rw [settled]
        exact Except.ok.inj decided

end Search

/-- Any request to a tree of unknown make. One that is no statement is answered as such. For a
statement an app that is absent or null is unknown, and an app that is something other than a table
is a fault. In a table of paths the fault is met exactly if the first candidate path that ends the
search holds something other than a table. Without a fault the decision is the one of the tree that
is left when everything that does not belong into one is taken out. -/
theorem authorize_unless_fault (request : Value) :
    (request.statement? = none → ∀ tree : ForeignTree, tree.authorize request = .ok .invalid) ∧
    ∀ (statement : Statement) (apps : Table (Slot (Slot Value))),
      request.statement? = some statement → Distinct (.table apps) →
      let tree : ForeignTree := .table apps
      (apps.find? statement.app = none ∨ apps.find? statement.app = some .absent →
        tree.authorize request = .ok (.unknownApp statement.app)) ∧
      (apps.find? statement.app = some .alien → tree.authorize request = .error .noTable) ∧
      (∀ resources, apps.find? statement.app = some (.table resources) →
        (tree.authorize request = .error .noTable ↔
          ∃ before path after, candidatePaths statement.segments = before ++ path :: after ∧
            (∀ earlier ∈ before, Passes resources statement.permission earlier) ∧
            resources.find? path = some .alien)) ∧
      ∀ decision, tree.authorize request = .ok decision →
        tree.clean.authorize request = decision := by
  constructor
  · intro invalid tree
    rw [authorize, invalid]
  · intro statement apps valid distinct tree
    obtain ⟨unique, under⟩ := distinct
    simp only [tree, authorize, Tree.authorize, valid, settle, Tree.settle, find?_clean unique]
    cases found : apps.find? statement.app with
    | none => simp
    | some slot =>
        have distinct := under _ (Table.mem_of_find? found)
        cases slot with
        | absent => simp [Slot.table?]
        | alien => simp [Slot.table?]
        | table resources =>
            refine ⟨by simp, by simp, ?_, ?_⟩
            · intro held same
              obtain rfl := Slot.table.inj (Option.some.inj same)
              exact settleAmong_eq_error_iff distinct _
            · intro decision decided
              exact settle_of_settleAmong distinct decided

/-- A null path and a path with values that are no effects are passed, and an open path denies the
files of a project in front of a root that is a number. What lies elsewhere gets to that root. -/
theorem authorize_unless_fault_before_root :
    let resources : Table (Slot Value) := [("42:files", .absent), ("", .alien),
      ("42", .table [("access", .scalar (.bool true)), ("*", .scalar .null)]),
      (":files", .table [("read", .ofText "+"), ("access", .ofText "-")])]
    let tree : ForeignTree := .table [("docs", .alien), ("projects", .table resources)]
    let files := Value.ofText "access@projects:42:files"
    tree.Distinct ∧
      tree.authorize files = .ok (.settled .deny "access" "projects" ":files") ∧
      tree.clean.authorize files = .settled .deny "access" "projects" ":files" ∧
      tree.authorize (.ofText "access@projects:42") = .error .noTable := by
  intro resources tree files
  have distinct : tree.Distinct := by
    simp only [tree, resources, Distinct, Slot.Distinct, List.forall_mem_cons]
    simp [Table.names]
  have filesRead : files.statement? =
      some ⟨.grant, "access", "projects", ["42", "files"]⟩ := by decide
  have projectRead : (Value.ofText "access@projects:42").statement? =
      some ⟨.grant, "access", "projects", ["42"]⟩ := by decide
  have decided : tree.authorize files = .ok (.settled .deny "access" "projects" ":files") := rfl
  have cleaned := ((authorize_unless_fault files).2 _ _ filesRead distinct).2.2.2 _ decided
  have failure := ((authorize_unless_fault (.ofText "access@projects:42")).2 _ _ projectRead
    distinct).2.2.1 resources rfl
  have passes : Passes resources "access" "42" := by
    intro slot stored ends
    obtain rfl := Option.some.inj stored
    exact Slot.ends_table_iff.mp ends rfl
  refine ⟨distinct, decided, cleaned, failure.mpr ⟨["42"], "", [""], rfl, ?_, rfl⟩⟩
  exact List.forall_mem_singleton.mpr passes

end ForeignTree

end Permits
