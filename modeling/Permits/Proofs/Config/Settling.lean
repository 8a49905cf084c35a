import Permits.Config.Source
import Permits.Proofs.Config.Strict
import Permits.Proofs.Yaml.Faults

set_option autoImplicit false

namespace Permits

/-- Whether scalars can be put in order: all of them are of one family. -/
def OneFamily (scalars : List Scalar) : Prop :=
  ∀ first ∈ scalars, ∀ second ∈ scalars, first.family = second.family

theorem Scalar.sort?_eq_none_iff (scalars : List Scalar) :
    sort? scalars = none ↔ ¬ OneFamily scalars := by
  match scalars with
  | [] => simp [sort?, OneFamily]
  | [only] => simp [sort?, OneFamily]
  | first :: second :: rest =>
      have common : OneFamily (first :: second :: rest) ↔
          ∀ other ∈ second :: rest, other.family = first.family := by
        constructor
        · intro one other present
          exact one other (List.mem_cons_of_mem _ present) first List.mem_cons_self
        · intro same
          have whole : ∀ other ∈ first :: second :: rest, other.family = first.family :=
            List.forall_mem_cons.mpr ⟨rfl, same⟩
          intro left inLeft right inRight
          rw [whole left inLeft, whole right inRight]
      rw [common, sort?]
      · simp
      · exact List.cons_ne_nil _ _

namespace Config

/-- Whether a load ends in a configuration or in a refusal that carries a source. -/
def Settles (source : Option String) : Except LoadFault Config → Prop
  | .ok _ => True
  | .error (.refused error) => error.source = source
  | .error _ => False

instance decidableSettles (source : Option String) (result : Except LoadFault Config) :
    Decidable (Settles source result) :=
  match result with
  | .ok _ => isTrue trivial
  | .error (.refused error) => inferInstanceAs (Decidable (error.source = source))
  | .error .unorderedKeys => isFalse id
  | .error (.badScalar _) => isFalse id
  | .error (.missing _) => isFalse id
  | .error .directory => isFalse id
  | .error .unread => isFalse id

theorem settles_iff (source : Option String) (result : Except LoadFault Config) :
    Settles source result ↔ (∃ config, result = .ok config) ∨
      ∃ refusal, result = .error (.refused ⟨refusal, source⟩) := by
  constructor
  · intro settles
    match result, settles with
    | .ok config, _ => exact Or.inl ⟨config, rfl⟩
    | .error (.refused ⟨refusal, _⟩), same => exact Or.inr ⟨refusal, by rw [← same]⟩
  · rintro (⟨config, rfl⟩ | ⟨refusal, rfl⟩)
    · trivial
    · rfl

theorem eq_ok_of_toOption {ε α : Type} {result : Except ε α} {value : α}
    (taken : result.toOption = some value) : result = .ok value := by
  cases result with
  | error fault => cases taken
  | ok other => exact congrArg Except.ok (Option.some.inj taken)

-- Nor are unknown keys that cannot be compared, a number and a text, when the load is strict.
example : ¬ Settles none (loadText .text true none "1: a\nb: c\n") := by decide +kernel

end Config

end Permits
