import Permits.Text.Blank

set_option autoImplicit false

namespace Permits.Text

def digitValue? (c : Char) : Option Nat :=
  if c.isDigit then some (c.toNat - '0'.toNat)
  else if 'a' ≤ c ∧ c ≤ 'z' then some (c.toNat - 'a'.toNat + 10)
  else if 'A' ≤ c ∧ c ≤ 'Z' then some (c.toNat - 'A'.toNat + 10)
  else none

def digitsFrom? (base before : Nat) : List Char → Option Nat
  | [] => some before
  | c :: rest =>
      (digitValue? c).bind fun digit =>
        if digit < base then digitsFrom? base (before * base + digit) rest else none

def digits? (base : Nat) (cs : List Char) : Option Nat :=
  if cs.isEmpty then none else digitsFrom? base 0 cs

/-- The most digits of a decimal number that is read. -/
def mostDigits : Nat := 4300

def zeros : List Nat :=
  [0x660, 0x6F0, 0x7C0, 0x966, 0x9E6, 0xA66, 0xAE6, 0xB66, 0xBE6, 0xC66, 0xCE6, 0xD66, 0xDE6,
    0xE50, 0xED0, 0xF20, 0x1040, 0x1090, 0x17E0, 0x1810, 0x1946, 0x19D0, 0x1A80, 0x1A90, 0x1B50,
    0x1BB0, 0x1C40, 0x1C50, 0xA620, 0xA8D0, 0xA900, 0xA9D0, 0xA9F0, 0xAA50, 0xABF0, 0xFF10,
    0x104A0, 0x10D30, 0x11066, 0x110F0, 0x11136, 0x111D0, 0x112F0, 0x11450, 0x114D0, 0x11650,
    0x116C0, 0x11730, 0x118E0, 0x11950, 0x11C50, 0x11D50, 0x11DA0, 0x16A60, 0x16AC0, 0x16B50,
    0x1D7CE, 0x1D7D8, 0x1D7E2, 0x1D7EC, 0x1D7F6, 0x1E140, 0x1E2F0, 0x1E950, 0x1FBF0]

/-- A character as numbers are read. Digits of other scripts count as those of ASCII, and so do
other blanks. -/
def numeralChar (c : Char) : Char :=
  if c.toNat < 127 then c
  else if isBlank c then ' '
  else
    match zeros.find? fun start => start ≤ c.toNat && c.toNat < start + 10 with
    | some start => Char.ofNat ('0'.toNat + (c.toNat - start))
    | none => c

def numeral (cs : List Char) : List Char :=
  let isAround := fun (c : Char) => c = ' ' || (9 ≤ c.toNat && c.toNat ≤ 13)
  (((cs.map numeralChar).dropWhile isAround).reverse.dropWhile isAround).reverse

/-- A decimal number as written: its digits without the point, and the power of ten of the last
digit. -/
structure Decimal where
  digits : Nat
  power : Int

namespace Decimal

def ofParts? (whole fraction : List Char) (exponent : Int) : Option Decimal :=
  (digits? 10 (whole ++ fraction)).map fun value => ⟨value, exponent - fraction.length⟩

def exponent? : List Char → Option Int
  | '-' :: rest => (digits? 10 rest).map fun value => -(value : Int)
  | '+' :: rest => (digits? 10 rest).map fun value => (value : Int)
  | rest => (digits? 10 rest).map fun value => (value : Int)

/-- Reads a decimal without a sign. Digits may be missing before or after the point, not both. -/
def read? (cs : List Char) : Option Decimal :=
  let isMark := fun (c : Char) => c = 'e' || c = 'E'
  let significand := cs.takeWhile (!isMark ·)
  let whole := significand.takeWhile (· != '.')
  let fraction := (significand.dropWhile (· != '.')).drop 1
  match cs.dropWhile (!isMark ·) with
  | [] => ofParts? whole fraction 0
  | _ :: rest => (exponent? rest).bind (ofParts? whole fraction)

/-- The nearest double. Powers far outside the range of doubles are cut before they are computed:
the digits then decide nothing but zero. -/
def toDouble (decimal : Decimal) : Float :=
  let size : Int := (Nat.toDigits 10 decimal.digits).length
  if decimal.digits = 0 then 0.0
  else if decimal.power + size > 400 then Float.ofBits 0x7FF0000000000000
  else if decimal.power + size < -400 then 0.0
  else Float.ofScientific decimal.digits (decimal.power < 0) decimal.power.natAbs

end Decimal

end Permits.Text
