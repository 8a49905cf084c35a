import Permits.Text.Decimal
import Permits.Text.Quoted

set_option autoImplicit false

namespace Permits

namespace Text

theorem digitValue?_digitChar {digit : Nat} (small : digit < 16) :
    digitValue? digit.digitChar = some digit := by
  revert digit
  decide

theorem digitsFrom?_append (base before : Nat) (first second : List Char) :
    digitsFrom? base before (first ++ second) =
      (digitsFrom? base before first).bind fun value => digitsFrom? base value second := by
  induction first generalizing before with
  | nil => rfl
  | cons c rest ih =>
      rw [List.cons_append, digitsFrom?, digitsFrom?]
      cases digitValue? c with
      | none => rfl
      | some digit =>
          simp only [Option.bind_some]
          split
          · exact ih _
          · rfl

theorem digitsFrom?_toDigits {base : Nat} (wide : 1 < base) (known : base ≤ 16) (n : Nat) :
    digitsFrom? base 0 (Nat.toDigits base n) = some n := by
  induction n using Nat.strongRecOn with
  | ind n ih =>
      rw [Nat.toDigits_eq_if wide]
      split
      case isTrue small =>
          simp [digitsFrom?, digitValue?_digitChar (Nat.lt_of_lt_of_le small known), small]
      case isFalse large =>
          have positive : 0 < base := by omega
          have last : n % base < base := Nat.mod_lt n positive
          have shorter : n / base < n := Nat.div_lt_self (by omega) wide
          rw [digitsFrom?_append, ih (n / base) shorter]
          simp [digitsFrom?, digitValue?_digitChar (Nat.lt_of_lt_of_le last known), last,
            Nat.div_add_mod' n base]

theorem digits?_toDigits {base : Nat} (wide : 1 < base) (known : base ≤ 16) (n : Nat) :
    digits? base (Nat.toDigits base n) = some n := by
  have full : (Nat.toDigits base n).isEmpty = false := by
    simp [Nat.toDigits_ne_nil]
  rw [digits?, full]
  exact digitsFrom?_toDigits wide known n

theorem exists_toDigits_of_pos {base n : Nat} (wide : 1 < base) (positive : 0 < n) :
    ∃ first others, Nat.toDigits base n = first :: others ∧ first ≠ '0' := by
  induction n using Nat.strongRecOn with
  | ind n ih =>
      rw [Nat.toDigits_eq_if wide]
      split
      · exact ⟨_, [], rfl, fun zero => Nat.ne_of_gt positive (Nat.digitChar_eq_zero.mp zero)⟩
      · obtain ⟨first, others, digits, nonzero⟩ := ih (n / base)
          (Nat.div_lt_self positive wide) (Nat.div_pos (by omega) (by omega))
        exact ⟨first, _, by rw [digits]; rfl, nonzero⟩

theorem digitsFrom?_replicate_zero (base count : Nat) (wide : 0 < base) (cs : List Char) :
    digitsFrom? base 0 (List.replicate count '0' ++ cs) = digitsFrom? base 0 cs := by
  induction count with
  | zero => rfl
  | succ count ih =>
      rw [List.replicate_succ, List.cons_append, digitsFrom?,
        show digitValue? '0' = some 0 by decide, Option.bind_some, if_pos wide]
      simpa using ih

theorem length_hexDigits_four {code : Nat} (small : code < 0x10000) :
    (hexDigits 4 code).length = 4 := by
  have short := (Nat.length_toDigits_le_iff (by decide : 1 < 16) (by decide : 0 < 4)).mpr small
  rw [hexDigits, List.length_append, List.length_replicate]
  omega

theorem digits?_hexDigits (width code : Nat) : digits? 16 (hexDigits width code) = some code := by
  have full : (hexDigits width code).isEmpty = false := by
    simp [hexDigits, Nat.toDigits_ne_nil]
  rw [digits?, full, hexDigits, digitsFrom?_replicate_zero 16 _ (by decide)]
  exact digitsFrom?_toDigits (by decide) (by decide) code

end Text

end Permits
