set_option autoImplicit false

namespace Permits

abbrev Table (α : Type) : Type := List (String × α)

namespace Table

variable {α : Type}

def find? (name : String) : Table α → Option α
  | [] => none
  | (other, value) :: rest => if other = name then some value else find? name rest

/-- Puts a value under a name: in the place of the name if it is present, else at the end. -/
def put (name : String) (value : α) : Table α → Table α
  | [] => [(name, value)]
  | (other, old) :: rest =>
      if other = name then (name, value) :: rest else (other, old) :: put name value rest

def names (table : Table α) : List String := table.map Prod.fst

@[simp] theorem find?_nil (name : String) : find? name ([] : Table α) = none := rfl

theorem find?_put (table : Table α) (name other : String) (value : α) :
    find? other (put name value table) =
      if name = other then some value else find? other table := by
  induction table with
  | nil => rfl
  | cons entry rest ih =>
      rcases entry with ⟨first, old⟩
      by_cases present : first = name
      · subst present
        by_cases same : first = other <;> simp [put, find?, same]
      · by_cases same : first = other
        · subst same
          simp [put, find?, present, Ne.symm present]
        · simp [put, find?, present, same, ih]

theorem names_put (table : Table α) (name : String) (value : α) :
    names (put name value table) =
      if name ∈ names table then names table else names table ++ [name] := by
  induction table with
  | nil => simp [put, names]
  | cons entry rest ih =>
      rcases entry with ⟨first, old⟩
      simp only [names] at ih ⊢
      by_cases present : first = name
      · subst present
        simp [put]
      · by_cases later : name ∈ rest.map Prod.fst <;>
          simp [put, present, Ne.symm present, later, ih]

end Table

end Permits
