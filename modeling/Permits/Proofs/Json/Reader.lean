import Permits.Json
import Permits.Proofs.Text.Digits

set_option autoImplicit false

namespace Permits

namespace Json

def isBlank (c : Char) : Bool := c = ' ' || c = '\t' || c = '\n' || c = '\r'

def skipBlanks (cs : List Char) : List Char := cs.dropWhile isBlank

/-- What a character behind a backslash stands for. -/
def escaped? : Char → Option Nat
  | '\x22' => some 0x22
  | '\\' => some 0x5C
  | '/' => some 0x2F
  | 'b' => some 8
  | 'f' => some 12
  | 'n' => some 10
  | 'r' => some 13
  | 't' => some 9
  | _ => none

/-- The numbers of the characters up to the closing quote, and what follows it. -/
def readUnits : List Char → Option (List Nat × List Char)
  | [] => none
  | '\x22' :: rest => some ([], rest)
  | '\\' :: 'u' :: a :: b :: c :: d :: rest => do
      let unit ← Text.digits? 16 [a, b, c, d]
      let (units, later) ← readUnits rest
      return (unit :: units, later)
  | '\\' :: mark :: rest => do
      let unit ← escaped? mark
      let (units, later) ← readUnits rest
      return (unit :: units, later)
  | c :: rest =>
      if c.toNat < 32 then none
      else do
        let (units, later) ← readUnits rest
        return (c.toNat :: units, later)

def isPair (first second : Nat) : Bool :=
  0xD800 ≤ first && first < 0xDC00 && 0xDC00 ≤ second && second < 0xE000

/-- The characters of numbers, where pairs of UTF-16 units are one character. -/
def joinUnits : List Nat → Option (List Char)
  | [] => some []
  | [unit] => if unit.isValidChar then some [Char.ofNat unit] else none
  | first :: second :: rest =>
      if isPair first second then
        (joinUnits rest).map
          (Char.ofNat (0x10000 + (first - 0xD800) * 0x400 + (second - 0xDC00)) :: ·)
      else if first.isValidChar then (joinUnits (second :: rest)).map (Char.ofNat first :: ·)
      else none

def readText (cs : List Char) : Option (String × List Char) := do
  let (units, rest) ← readUnits cs
  let text ← joinUnits units
  return (String.ofList text, rest)

/-- The numbers by which a character is written. -/
def unitsOf (c : Char) : List Nat :=
  if c.toNat < 0x10000 then [c.toNat]
  else [0xD800 + (c.toNat - 0x10000) / 0x400, 0xDC00 + (c.toNat - 0x10000) % 0x400]

theorem readUnits_unitEscape {unit : Nat} (small : unit < 0x10000) (rest : List Char) :
    readUnits (unitEscape unit ++ rest) =
      (readUnits rest).map fun (units, later) => (unit :: units, later) := by
  obtain ⟨a, b, c, d, four⟩ : ∃ a b c d, Text.hexDigits 4 unit = [a, b, c, d] := by
    have width := Text.length_hexDigits_four small
    match Text.hexDigits 4 unit, width with
    | [a, b, c, d], _ => exact ⟨a, b, c, d, rfl⟩
  have value := Text.digits?_hexDigits 4 unit
  rw [four] at value
  rw [unitEscape, four]
  simp only [List.cons_append, List.nil_append, readUnits, value]
  cases readUnits rest <;> rfl

theorem readUnits_escaped {mark : Char} {unit : Nat} (known : escaped? mark = some unit)
    (rest : List Char) :
    readUnits ('\\' :: mark :: rest) =
      (readUnits rest).map fun (units, later) => (unit :: units, later) := by
  have other : mark ≠ 'u' := by
    rintro rfl
    cases known
  rw [readUnits, known]
  · cases readUnits rest <;> rfl
  · intro a b c d later same
    exact absurd same other

theorem readUnits_plain {c : Char} (quote : c ≠ '\x22') (slash : c ≠ '\\') (printed : 32 ≤ c.toNat)
    (rest : List Char) :
    readUnits (c :: rest) =
      (readUnits rest).map fun (units, later) => (c.toNat :: units, later) := by
  rw [readUnits]
  · rw [if_neg (Nat.not_lt.mpr printed)]
    cases readUnits rest <;> rfl
  · exact quote
  · intro a b c d later same
    exact absurd same slash
  · intro mark later same
    exact absurd same slash

theorem unitsOf_of_small {c : Char} (small : c.toNat < 0x10000) : unitsOf c = [c.toNat] :=
  if_pos small

theorem readUnits_escapeChar (c : Char) (rest : List Char) :
    readUnits (escapeChar c ++ rest) =
      (readUnits rest).map fun (units, later) => (unitsOf c ++ units, later) := by
  have single : ∀ {code}, c.toNat = code → code < 0x10000 → unitsOf c = [code] := by
    rintro code rfl small
    exact unitsOf_of_small small
  rw [escapeChar]
  split
  case isTrue quoted =>
      rcases quoted with rfl | rfl
      · exact readUnits_escaped rfl rest
      · exact readUnits_escaped rfl rest
  case isFalse unquoted =>
  rw [not_or] at unquoted
  split
  case isTrue printed =>
      rw [unitsOf_of_small (by omega)]
      exact readUnits_plain unquoted.1 unquoted.2 printed.1 rest
  case isFalse =>
  split
  case isTrue newline =>
      subst newline
      exact readUnits_escaped rfl rest
  case isFalse =>
  split
  case isTrue return_ =>
      subst return_
      exact readUnits_escaped rfl rest
  case isFalse =>
  split
  case isTrue tab =>
      subst tab
      exact readUnits_escaped rfl rest
  case isFalse =>
  split
  case isTrue eight =>
      rw [single eight (by decide)]
      exact readUnits_escaped rfl rest
  case isFalse =>
  split
  case isTrue twelve =>
      rw [single twelve (by decide)]
      exact readUnits_escaped rfl rest
  case isFalse =>
  split
  case isTrue small =>
      rw [unitsOf_of_small small]
      exact readUnits_unitEscape small rest
  case isFalse large =>
      have valid : c.toNat.isValidChar := c.valid
      dsimp only
      rw [List.append_assoc, readUnits_unitEscape (by omega), readUnits_unitEscape (by omega),
        unitsOf, if_neg large]
      cases readUnits rest <;> rfl

theorem readUnits_quoted (cs rest : List Char) :
    readUnits (cs.flatMap escapeChar ++ '\x22' :: rest) = some (cs.flatMap unitsOf, rest) := by
  induction cs with
  | nil => rw [List.flatMap_nil, List.nil_append, readUnits]; rfl
  | cons c cs ih =>
      rw [List.flatMap_cons, List.append_assoc, readUnits_escapeChar, ih]
      rfl

theorem joinUnits_valid {unit : Nat} (valid : unit.isValidChar) (units : List Nat) :
    joinUnits (unit :: units) = (joinUnits units).map (Char.ofNat unit :: ·) := by
  cases units with
  | nil => simp [joinUnits, valid]
  | cons second rest =>
      have single : isPair unit second = false := by
        simp only [isPair, Bool.and_eq_false_iff, decide_eq_false_iff_not]
        omega
      simp [joinUnits, single, valid]

theorem joinUnits_pair {first second : Nat} (pair : isPair first second = true)
    (units : List Nat) :
    joinUnits (first :: second :: units) = (joinUnits units).map
      (Char.ofNat (0x10000 + (first - 0xD800) * 0x400 + (second - 0xDC00)) :: ·) := by
  rw [joinUnits, if_pos pair]

theorem joinUnits_unitsOf (cs : List Char) : joinUnits (cs.flatMap unitsOf) = some cs := by
  induction cs with
  | nil => rfl
  | cons c cs ih =>
      have valid : c.toNat.isValidChar := c.valid
      rw [List.flatMap_cons, unitsOf]
      split
      case isTrue small =>
          rw [List.singleton_append, joinUnits_valid valid, ih, Option.map_some, Char.ofNat_toNat]
      case isFalse large =>
          have pair : isPair (0xD800 + (c.toNat - 0x10000) / 0x400)
              (0xDC00 + (c.toNat - 0x10000) % 0x400) = true := by
            simp only [isPair, Bool.and_eq_true, decide_eq_true_eq]
            omega
          have same : 0x10000 + (0xD800 + (c.toNat - 0x10000) / 0x400 - 0xD800) * 0x400 +
              (0xDC00 + (c.toNat - 0x10000) % 0x400 - 0xDC00) = c.toNat := by
            omega
          rw [List.cons_append, List.singleton_append, joinUnits_pair pair, same, ih,
            Option.map_some, Char.ofNat_toNat]

theorem readText_quoted (text : String) (rest : List Char) :
    readText (text.toList.flatMap escapeChar ++ '\x22' :: rest) = some (text, rest) := by
  simp [readText, readUnits_quoted, joinUnits_unitsOf]

/-- Reads digits. A zero in front is a number of its own. -/
def readNat : List Char → Option (Nat × List Char)
  | '0' :: rest => some (0, rest)
  | cs => (Text.digits? 10 (cs.takeWhile Char.isDigit)).map fun value =>
      (value, cs.dropWhile Char.isDigit)

def readInt : List Char → Option (Int × List Char)
  | '-' :: rest => (readNat rest).map fun (value, later) => (-(value : Int), later)
  | cs => (readNat cs).map fun (value, later) => ((value : Int), later)

/-- A text that does not go on with a digit. -/
def Apart (rest : List Char) : Prop := ∀ c ∈ rest.head?, c.isDigit = false

theorem Apart.takeWhile {rest : List Char} (apart : Apart rest) :
    rest.takeWhile Char.isDigit = [] := by
  cases rest with
  | nil => rfl
  | cons c rest => simp [apart c rfl]

theorem Apart.dropWhile {rest : List Char} (apart : Apart rest) :
    rest.dropWhile Char.isDigit = rest := by
  cases rest with
  | nil => rfl
  | cons c rest => simp [apart c rfl]

theorem readNat_toDigits (n : Nat) {rest : List Char} (apart : Apart rest) :
    readNat (Nat.toDigits 10 n ++ rest) = some (n, rest) := by
  rcases Nat.eq_zero_or_pos n with rfl | positive
  · rw [Nat.toDigits_zero]; rfl
  · obtain ⟨first, others, digits, nonzero⟩ :=
      Text.exists_toDigits_of_pos (by decide : 1 < 10) positive
    have all : ∀ c ∈ Nat.toDigits 10 n, c.isDigit = true := fun c present =>
      Nat.isDigit_of_mem_toDigits (by decide) (by decide) present
    have taken : (Nat.toDigits 10 n ++ rest).takeWhile Char.isDigit = Nat.toDigits 10 n := by
      rw [List.takeWhile_append_of_pos all, apart.takeWhile, List.append_nil]
    have left : (Nat.toDigits 10 n ++ rest).dropWhile Char.isDigit = rest := by
      rw [List.dropWhile_append_of_pos all, apart.dropWhile]
    rw [readNat, taken, left, Text.digits?_toDigits (by decide) (by decide)]
    · rfl
    · intro later same
      rw [digits, List.cons_append, List.cons.injEq] at same
      exact nonzero same.1

theorem toList_toString_ofNat (n : Nat) : (toString (n : Int)).toList = Nat.toDigits 10 n :=
  Nat.toList_repr

theorem toList_toString_negSucc (n : Nat) :
    (toString (Int.negSucc n)).toList = '-' :: Nat.toDigits 10 (n + 1) := by
  change ("-" ++ Nat.repr (n + 1)).toList = _
  simp

theorem readInt_toString (value : Int) {rest : List Char} (apart : Apart rest) :
    readInt ((toString value).toList ++ rest) = some (value, rest) := by
  cases value with
  | ofNat n =>
      rw [Int.ofNat_eq_natCast, toList_toString_ofNat, readInt, readNat_toDigits n apart]
      · rfl
      · intro later same
        have digit : '-' ∈ Nat.toDigits 10 n := by
          cases digits : Nat.toDigits 10 n with
          | nil => exact absurd digits Nat.toDigits_ne_nil
          | cons first others =>
              rw [digits, List.cons_append, List.cons.injEq] at same
              exact same.1 ▸ List.mem_cons_self
        exact absurd (Nat.isDigit_of_mem_toDigits (by decide) (by decide) digit) (by decide)
  | negSucc n =>
      rw [toList_toString_negSucc, List.cons_append, readInt, readNat_toDigits (n + 1) apart]
      rfl

/-- Goes on behind the first part of a list: more follows a comma, the closing bracket ends it. -/
def readOn {α : Type} (closing : Char) (more : List Char → Option (List α × List Char)) (first : α)
    (cs : List Char) : Option (List α × List Char) :=
  match skipBlanks cs with
  | [] => none
  | c :: rest =>
      if c = ',' then (more rest).map fun (others, later) => (first :: others, later)
      else if c = closing then some ([first], rest)
      else none

mutual

/-- Reads a document. The fuel is spent by one with each part. -/
def readValue : Nat → List Char → Option (Json × List Char)
  | 0, _ => none
  | fuel + 1, cs =>
      match cs with
      | '[' :: rest =>
          match skipBlanks rest with
          | ']' :: later => some (list [], later)
          | _ => (readItems fuel rest).map fun (items, later) => (list items, later)
      | '\x7b' :: rest =>
          match skipBlanks rest with
          | '\x7d' :: later => some (object [], later)
          | _ => (readMembers fuel rest).map fun (members, later) => (object members, later)
      | '\x22' :: rest => (readText rest).map fun (value, later) => (text value, later)
      | 'n' :: 'u' :: 'l' :: 'l' :: later => some (null, later)
      | 't' :: 'r' :: 'u' :: 'e' :: later => some (bool true, later)
      | 'f' :: 'a' :: 'l' :: 's' :: 'e' :: later => some (bool false, later)
      | cs => (readInt cs).map fun (value, later) => (int value, later)

/-- Reads the items of a list and its closing bracket. -/
def readItems : Nat → List Char → Option (List Json × List Char)
  | 0, _ => none
  | fuel + 1, cs => do
      let (item, rest) ← readValue fuel (skipBlanks cs)
      readOn ']' (readItems fuel) item rest

/-- Reads the members of an object and its closing bracket. -/
def readMembers : Nat → List Char → Option (List (String × Json) × List Char)
  | 0, _ => none
  | fuel + 1, cs =>
      match skipBlanks cs with
      | '\x22' :: rest => do
          let (name, rest) ← readText rest
          match skipBlanks rest with
          | ':' :: rest => do
              let (value, rest) ← readValue fuel (skipBlanks rest)
              readOn '\x7d' (readMembers fuel) (name, value) rest
          | _ => none
      | _ => none

end

/-- The document that a text is, with blanks around it. -/
def read? (written : String) : Option Json := do
  let cs := written.toList
  let (value, rest) ← readValue cs.length (skipBlanks cs)
  if skipBlanks rest = [] then return value else none

end Json

end Permits
