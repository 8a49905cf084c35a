import Mathlib.Data.List.Induction
import Permits.Tree.Table

set_option autoImplicit false

namespace Permits

/-- Adds a name behind the others, unless it is among them. -/
def enter (names : List String) (name : String) : List String :=
  if name ∈ names then names else names ++ [name]

theorem enter_of_mem {names : List String} {name : String} (present : name ∈ names) :
    enter names name = names := if_pos present

theorem enter_of_not_mem {names : List String} {name : String} (absent : name ∉ names) :
    enter names name = names ++ [name] := if_neg absent

theorem mem_enter (names : List String) (name other : String) :
    other ∈ enter names name ↔ other ∈ names ∨ other = name := by
  unfold enter
  split
  · rename_i present
    constructor
    · exact Or.inl
    · rintro (held | rfl)
      · exact held
      · exact present
  · simp

theorem nodup_enter {names : List String} (unique : names.Nodup) (name : String) :
    (enter names name).Nodup := by
  unfold enter
  split
  · exact unique
  · rename_i absent
    rw [List.nodup_append]
    refine ⟨unique, by simp, ?_⟩
    intro held member added same
    rw [List.mem_singleton] at same
    rintro rfl
    exact absent (same ▸ member)

theorem foldl_enter_of_subset (entered names : List String)
    (present : ∀ name ∈ entered, name ∈ names) : entered.foldl enter names = names := by
  induction entered with
  | nil => rfl
  | cons name rest ih =>
      rw [List.forall_mem_cons] at present
      rw [List.foldl_cons, enter_of_mem present.1]
      exact ih present.2

theorem mem_foldl_enter {entered names : List String} {name : String}
    (present : name ∈ entered ∨ name ∈ names) : name ∈ entered.foldl enter names := by
  induction entered generalizing names with
  | nil => exact present.resolve_left List.not_mem_nil
  | cons first rest ih =>
      apply ih
      rw [mem_enter]
      rcases present with member | held
      · rcases List.mem_cons.mp member with same | later
        · exact Or.inr (Or.inr same)
        · exact Or.inl later
      · exact Or.inr (Or.inl held)

theorem eraseDups_append_singleton {α : Type} [BEq α] [LawfulBEq α] (items : List α) (item : α) :
    (items ++ [item]).eraseDups =
      if item ∈ items then items.eraseDups else items.eraseDups ++ [item] := by
  rw [List.eraseDups_append]
  by_cases present : item ∈ items
  · simp [List.removeAll, present]
  · simp [List.removeAll, present, List.eraseDups_cons]

theorem eraseDups_concat (names : List String) (name : String) :
    (names ++ [name]).eraseDups = enter names.eraseDups name := by
  rw [eraseDups_append_singleton]
  by_cases present : name ∈ names
  · rw [if_pos present, enter_of_mem (List.mem_eraseDups.mpr present)]
  · rw [if_neg present, enter_of_not_mem (by rwa [List.mem_eraseDups])]

theorem eraseDups_append_eq_foldl (first second : List String) :
    (first ++ second).eraseDups = second.foldl enter first.eraseDups := by
  induction second generalizing first with
  | nil => simp
  | cons name rest ih =>
      rw [List.foldl_cons, ← eraseDups_concat, ← ih, List.append_assoc, List.singleton_append]

theorem eraseDups_eq_foldl (names : List String) : names.eraseDups = names.foldl enter [] :=
  eraseDups_append_eq_foldl [] names

theorem foldl_enter_eraseDups (entered names : List String) :
    entered.eraseDups.foldl enter names = entered.foldl enter names := by
  induction entered using List.reverseRecOn with
  | nil => rfl
  | append_singleton rest name ih =>
      rw [eraseDups_concat, List.foldl_append, ← ih, List.foldl_cons, List.foldl_nil]
      by_cases present : name ∈ rest.eraseDups
      · rw [enter_of_mem present, enter_of_mem (mem_foldl_enter (Or.inl present))]
      · rw [enter_of_not_mem present, List.foldl_append]
        rfl

theorem eraseDups_append_congr {first second : List String} (before after : List String)
    (same : first.eraseDups = second.eraseDups) :
    (before ++ first ++ after).eraseDups = (before ++ second ++ after).eraseDups := by
  simp only [eraseDups_append_eq_foldl]
  rw [← foldl_enter_eraseDups first, ← foldl_enter_eraseDups second, same]

namespace Table

variable {α : Type}

theorem names_put_eq_enter (table : Table α) (name : String) (value : α) :
    names (put name value table) = enter (names table) name := names_put table name value

theorem find?_eq_none_iff (table : Table α) (name : String) :
    find? name table = none ↔ name ∉ names table := by
  induction table with
  | nil => simp [names]
  | cons entry rest ih =>
      rcases entry with ⟨first, value⟩
      simp only [names] at ih
      by_cases same : first = name
      · simp [find?, names, same]
      · simp [find?, names, same, Ne.symm same, ih]

theorem exists_find?_of_mem_names {table : Table α} {name : String} (present : name ∈ names table) :
    ∃ value, find? name table = some value := by
  apply Option.ne_none_iff_exists'.mp
  intro absent
  exact (find?_eq_none_iff table name).mp absent present

theorem mem_of_find? {table : Table α} {name : String} {value : α}
    (found : find? name table = some value) : (name, value) ∈ table := by
  induction table with
  | nil => cases found
  | cons entry rest ih =>
      rcases entry with ⟨first, held⟩
      rw [find?] at found
      split at found
      · rename_i same
        rw [Option.some.injEq] at found
        simp [same, found]
      · exact List.mem_cons_of_mem _ (ih found)

theorem mem_names_of_find? {table : Table α} {name : String} {value : α}
    (found : find? name table = some value) : name ∈ names table :=
  List.mem_map_of_mem (mem_of_find? found)

theorem find?_of_mem {table : Table α} (unique : (names table).Nodup) {name : String} {value : α}
    (present : (name, value) ∈ table) : find? name table = some value := by
  induction table with
  | nil => cases present
  | cons entry rest ih =>
      rcases entry with ⟨first, held⟩
      simp only [names, List.map_cons, List.nodup_cons] at unique
      rw [find?]
      rcases List.mem_cons.mp present with here | later
      · rw [Prod.mk.injEq] at here
        rw [if_pos here.1.symm, here.2]
      · have other : first ≠ name := by
          rintro rfl
          exact unique.1 (List.mem_map_of_mem later)
        rw [if_neg other]
        exact ih unique.2 later

/-- Looking up a name among changed entries, some of which may be dropped, is changing what is found
under the name. -/
theorem find?_filterMap {β : Type} {table : Table α} (unique : (names table).Nodup)
    {change : α → Option β} {changeEntry : String × α → Option (String × β)}
    (changed : ∀ name value, changeEntry (name, value) = (change value).map (name, ·))
    (name : String) :
    find? name (table.filterMap changeEntry) = (find? name table).bind change := by
  induction table with
  | nil => rfl
  | cons entry rest ih =>
      rcases entry with ⟨first, value⟩
      simp only [names, List.map_cons, List.nodup_cons] at unique
      rw [List.filterMap_cons, changed, find?]
      by_cases here : first = name
      · subst here
        -- A dropped entry leaves its name to nobody behind it.
        have absent : find? first rest = none := (find?_eq_none_iff rest first).mpr unique.1
        cases kept : change value with
        | none => simp [kept, ih unique.2, absent]
        | some new => simp [kept, find?]
      · cases kept : change value with
        | none => simp [here, ih unique.2]
        | some new => simp [here, find?, ih unique.2]

theorem forall_mem_put {holds : String × α → Prop} {table : Table α} {name : String} {value : α}
    (before : ∀ entry ∈ table, holds entry) (new : holds (name, value)) :
    ∀ entry ∈ put name value table, holds entry := by
  induction table with
  | nil =>
      intro entry present
      rw [put, List.mem_singleton] at present
      exact present ▸ new
  | cons entry rest ih =>
      rcases entry with ⟨first, held⟩
      rw [List.forall_mem_cons] at before
      rw [put]
      split
      · rw [List.forall_mem_cons]
        exact ⟨new, before.2⟩
      · rw [List.forall_mem_cons]
        exact ⟨before.1, ih before.2⟩

theorem put_ne_nil (table : Table α) (name : String) (value : α) : put name value table ≠ [] := by
  cases table with
  | nil => simp [put]
  | cons entry rest =>
      rw [put]
      split <;> simp

/-- Tables with the same names in the same order and the same values under them are equal. -/
theorem ext_of_find? {first second : Table α} (unique : (names first).Nodup)
    (order : names first = names second)
    (same : ∀ name ∈ names first, find? name first = find? name second) : first = second := by
  induction first generalizing second with
  | nil =>
      symm
      simpa [names] using order.symm
  | cons entry rest ih =>
      rcases entry with ⟨name, value⟩
      cases second with
      | nil => simp [names] at order
      | cons entry' rest' =>
          rcases entry' with ⟨name', value'⟩
          simp only [names, List.map_cons, List.cons.injEq] at order
          obtain ⟨rfl, order⟩ := order
          simp only [names, List.map_cons, List.nodup_cons] at unique
          have head := same name (by simp [names])
          simp only [find?, ↓reduceIte, Option.some.injEq] at head
          subst head
          have tail := ih unique.2 order fun other present => by
            have different : name ≠ other := by
              rintro rfl
              exact unique.1 present
            have found := same other (List.mem_cons_of_mem _ present)
            simpa only [find?, different, ↓reduceIte] using found
          rw [tail]

end Table

end Permits
