import Permits.Proofs.Tree.Shape
import Permits.Tree.Json

set_option autoImplicit false

namespace Permits

namespace Table

variable {α : Type}

theorem put_of_not_mem {table : Table α} {name : String} (absent : name ∉ names table)
    (value : α) : put name value table = table ++ [(name, value)] := by
  induction table with
  | nil => rfl
  | cons entry rest ih =>
      rcases entry with ⟨first, old⟩
      simp only [names, List.map_cons, List.mem_cons, not_or] at absent
      rw [put, if_neg (Ne.symm absent.1), ih absent.2, List.cons_append]

/-- Enters the members of an object into a table, in order. -/
def enterMembers? (read : Json → Option α) (table : Table α) (members : List (String × Json)) :
    Option (Table α) :=
  members.foldlM (fun table member => (read member.2).map fun value => put member.1 value table)
    table

def ofJson? (read : Json → Option α) : Json → Option (Table α)
  | .object members => enterMembers? read [] members
  | _ => none

theorem enterMembers?_of_unique {read : Json → Option α} {write : α → Json} {before rest : Table α}
    (unique : (names (before ++ rest)).Nodup)
    (reads : ∀ entry ∈ rest, read (write entry.2) = some entry.2) :
    enterMembers? read before (rest.map fun entry => (entry.1, write entry.2)) =
      some (before ++ rest) := by
  induction rest generalizing before with
  | nil => simp [enterMembers?]
  | cons entry rest ih =>
      have absent : entry.1 ∉ names before := by
        intro present
        rw [names, List.map_append, List.nodup_append] at unique
        exact unique.2.2 entry.1 present entry.1 List.mem_cons_self rfl
      rw [List.forall_mem_cons] at reads
      have later : enterMembers? read (before ++ [entry])
          (rest.map fun entry => (entry.1, write entry.2)) = some (before ++ [entry] ++ rest) :=
        ih (by simpa using unique) reads.2
      rw [enterMembers?, List.map_cons, List.foldlM_cons, reads.1, Option.map_some,
        put_of_not_mem absent]
      simpa [enterMembers?] using later

theorem ofJson?_object {read : Json → Option α} (write : α → Json) {table : Table α}
    (unique : (names table).Nodup) (reads : ∀ entry ∈ table, read (write entry.2) = some entry.2) :
    ofJson? read (.object (table.map fun entry => (entry.1, write entry.2))) = some table := by
  have entered : enterMembers? read [] (table.map fun entry => (entry.1, write entry.2)) =
      some ([] ++ table) := enterMembers?_of_unique unique reads
  exact entered

end Table

/-- The effect that a sign in quotes writes. -/
def Effect.ofJson? : Json → Option Effect
  | .text sign => ofSign? sign
  | _ => none

namespace Tree

def ofJson? : Json → Option Tree := Table.ofJson? (Table.ofJson? (Table.ofJson? Effect.ofJson?))

theorem ofJson?_permissionsJson {permissions : Permissions} (good : permissions.WellFormed) :
    Table.ofJson? Effect.ofJson? (permissionsJson permissions) = some permissions :=
  Table.ofJson?_object (fun effect => .text effect.sign) good.unique fun entry _ =>
    Effect.ofSign?_sign entry.2

theorem ofJson?_resourcesJson {resources : Resources} (good : resources.WellFormed) :
    Table.ofJson? (Table.ofJson? Effect.ofJson?) (resourcesJson resources) = some resources :=
  Table.ofJson?_object permissionsJson good.unique fun entry present =>
    ofJson?_permissionsJson (good.permissions entry present)

theorem ofJson?_json {tree : Tree} (good : tree.WellFormed) : ofJson? tree.json = some tree :=
  Table.ofJson?_object resourcesJson good.unique fun entry present =>
    ofJson?_resourcesJson (good.resources entry present)

end Tree

end Permits
