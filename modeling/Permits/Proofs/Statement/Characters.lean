import Permits.Proofs.Statement.Spelling
import Permits.Proofs.Terminal.Column

set_option autoImplicit false

namespace Permits

def IsGraphic (c : Char) : Prop := 32 < c.toNat ∧ c.toNat < 127

instance decidableIsGraphic (c : Char) : Decidable (IsGraphic c) :=
  inferInstanceAs (Decidable (_ ∧ _))

namespace IsGraphic

variable {c : Char}

theorem of_isAlphanum (accepted : c.isAlphanum = true) : IsGraphic c := by
  have bounds (low high : Char) (within : low ≤ c ∧ c ≤ high) :
      low.toNat ≤ c.toNat ∧ c.toNat ≤ high.toNat := within
  rw [isAlphanum_iff] at accepted
  rcases accepted with upper | lower | digit
  · have range : 65 ≤ c.toNat ∧ c.toNat ≤ 90 := bounds 'A' 'Z' upper
    exact ⟨by omega, by omega⟩
  · have range : 97 ≤ c.toNat ∧ c.toNat ≤ 122 := bounds 'a' 'z' lower
    exact ⟨by omega, by omega⟩
  · have range : 48 ≤ c.toNat ∧ c.toNat ≤ 57 := bounds '0' '9' digit
    exact ⟨by omega, by omega⟩

theorem of_isSegmentChar (accepted : isSegmentChar c = true) : IsGraphic c := by
  simp only [isSegmentChar, Bool.or_eq_true, beq_iff_eq] at accepted
  rcases accepted with ((letter | rfl) | rfl) | rfl
  · exact of_isAlphanum letter
  · decide
  · decide
  · decide

theorem charWidth (graphic : IsGraphic c) : Terminal.charWidth c = 1 := by
  obtain ⟨low, high⟩ := graphic
  rw [Terminal.charWidth, if_pos (by omega), if_pos (by omega)]

theorem isBlank (graphic : IsGraphic c) : Text.isBlank c = false := by
  obtain ⟨low, high⟩ := graphic
  simp only [Text.isBlank, Bool.or_eq_false_iff, Bool.and_eq_false_iff, decide_eq_false_iff_not]
  omega

end IsGraphic

theorem mem_joinPath {segments : List String} {c : Char}
    (present : c ∈ (joinPath segments).toList) :
    c = ':' ∨ ∃ segment ∈ segments, c ∈ segment.toList := by
  induction segments with
  | nil => cases present
  | cons first rest ih =>
      by_cases alone : rest = []
      · rw [alone, joinPath_singleton] at present
        exact Or.inr ⟨first, List.mem_cons_self, present⟩
      · rw [joinPath, String.intercalate_cons_of_ne_nil alone, String.toList_append,
          String.toList_append, List.mem_append, List.mem_append] at present
        rcases present with (here | colon) | later
        · exact Or.inr ⟨first, List.mem_cons_self, here⟩
        · exact Or.inl (List.mem_singleton.mp colon)
        · rcases ih later with colon | ⟨segment, listed, inside⟩
          · exact Or.inl colon
          · exact Or.inr ⟨segment, List.mem_cons_of_mem _ listed, inside⟩

namespace Statement.WellFormed

variable {statement : Statement} (good : statement.WellFormed)
include good

theorem exists_text_cons :
    ∃ sign rest, statement.text.toList = sign :: rest ∧ (sign = '+' ∨ sign = '-') := by
  rw [good.text_eq, String.toList_append]
  cases statement.effect with
  | grant => exact ⟨'+', _, rfl, Or.inl rfl⟩
  | deny => exact ⟨'-', _, rfl, Or.inr rfl⟩

theorem isGraphic_of_mem_text : ∀ c ∈ statement.text.toList, IsGraphic c := by
  intro c present
  rw [good.text_eq, String.toList_append, toList_unsigned, List.mem_append, List.mem_append,
    List.mem_cons] at present
  rcases present with sign | permission | rfl | path
  · cases effect : statement.effect <;> rw [effect] at sign <;>
      rw [List.mem_singleton.mp sign] <;> decide
  · rcases (isPermission_iff statement.permission).mp good.permission with star | word
    · rw [star] at permission
      rw [List.mem_singleton.mp permission]
      decide
    · exact .of_isAlphanum ((isAlphanum_iff c).mpr (word.2 c permission))
  · decide
  · rcases mem_joinPath path with rfl | ⟨segment, listed, inside⟩
    · decide
    · rcases List.mem_cons.mp listed with rfl | later
      · exact .of_isAlphanum (List.all_eq_true.mp (all_alphanum_of_isName good.app) c inside)
      · exact .of_isSegmentChar (List.all_eq_true.mp (good.path.chars segment later) c inside)

theorem unbroken_text : Terminal.Unbroken statement.text.toList := by
  have graphic := good.isGraphic_of_mem_text
  obtain ⟨sign, rest, text, -⟩ := good.exists_text_cons
  refine ⟨?_, fun c present => (graphic c present).charWidth, fun c present =>
    (graphic c present).isBlank⟩
  rw [text]
  exact List.cons_ne_nil sign rest

end Statement.WellFormed

end Permits
