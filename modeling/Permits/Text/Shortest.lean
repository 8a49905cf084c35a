set_option autoImplicit false

namespace Permits.Text

/-- A positive number, and the interval of reals that round to it, over one denominator. -/
structure RoundingInterval where
  low : Nat
  value : Nat
  high : Nat
  denominator : Nat
  closed : Bool

namespace RoundingInterval

/-- The interval of `mantissa * 2 ^ exponent`. The gap below a power of two is half as wide as the
gap above it, unless the number is already at the least exponent. -/
def ofBinary (mantissa : Nat) (exponent : Int) (narrowBelow : Bool) : RoundingInterval :=
  let up := Nat.pow 2 (exponent - 2).toNat
  { low := (4 * mantissa - (if narrowBelow then 1 else 2)) * up
    value := 4 * mantissa * up
    high := (4 * mantissa + 2) * up
    denominator := Nat.pow 2 (2 - exponent).toNat
    closed := mantissa % 2 = 0 }

def inUnits (interval : RoundingInterval) (power : Int) : RoundingInterval :=
  let up := Nat.pow 10 (-power).toNat
  { interval with
    low := interval.low * up
    value := interval.value * up
    high := interval.high * up
    denominator := interval.denominator * Nat.pow 10 power.toNat }

def holds (interval : RoundingInterval) (units : Nat) : Bool :=
  let scaled := units * interval.denominator
  if interval.closed then interval.low ≤ scaled && scaled ≤ interval.high
  else interval.low < scaled && scaled < interval.high

/-- The neighbour of the number that rounds to it, if there is one. Of two the nearer is taken, and
of two at the same distance the even one. -/
def neighbour? (interval : RoundingInterval) : Option Nat :=
  let below := interval.value / interval.denominator
  let above := below + 1
  match interval.holds below, interval.holds above with
  | false, false => none
  | true, false => some below
  | false, true => some above
  | true, true =>
      let fromBelow := interval.value - below * interval.denominator
      let fromAbove := above * interval.denominator - interval.value
      if fromBelow < fromAbove then some below
      else if fromAbove < fromBelow then some above
      else if below % 2 = 0 then some below else some above

/-- The power of ten of the leading digit, found by stepping down from `top`. -/
def leadingPower (interval : RoundingInterval) : Nat → Int → Int
  | 0, top => top
  | steps + 1, top =>
      let scaled := interval.inUnits top
      if scaled.denominator ≤ scaled.value then top else leadingPower interval steps (top - 1)

def search (interval : RoundingInterval) : Nat → Int → Nat × Int
  | 0, power => ((interval.inUnits power).value / (interval.inUnits power).denominator, power)
  | tries + 1, power =>
      match (interval.inUnits power).neighbour? with
      | some units => (units, power)
      | none => search interval tries (power - 1)

end RoundingInterval

def dropTrailingZeros (digits : List Char) : List Char :=
  (digits.reverse.dropWhile (· == '0')).reverse

/-- The shortest digits of a number, and the place of the decimal point counted from the first
digit. Doubles lie between powers -324 and 308, and seventeen digits always tell them apart. -/
def shortestDigits (interval : RoundingInterval) : List Char × Int :=
  let top := interval.leadingPower 640 309
  let found := interval.search 17 top
  let digits := Nat.toDigits 10 found.1
  (dropTrailingZeros digits, found.2 + digits.length)

/-- How decimals are laid out: the places of the point that are written without an exponent, and
the least number of digits of an exponent. -/
structure DecimalLayout where
  firstPoint : Int
  lastPoint : Int
  exponentDigits : Nat

namespace DecimalLayout

def exponentText (layout : DecimalLayout) (exponent : Int) : List Char :=
  let digits := Nat.toDigits 10 exponent.natAbs
  (if exponent < 0 then '-' else '+') ::
    (List.replicate (layout.exponentDigits - digits.length) '0' ++ digits)

def layOut (layout : DecimalLayout) (digits : List Char) (point : Int) : List Char :=
  if layout.firstPoint ≤ point ∧ point ≤ layout.lastPoint then
    if point ≤ 0 then '0' :: '.' :: (List.replicate (-point).toNat '0' ++ digits)
    else if digits.length ≤ point.toNat then
      digits ++ List.replicate (point.toNat - digits.length) '0' ++ ['.', '0']
    else digits.take point.toNat ++ '.' :: digits.drop point.toNat
  else
    match digits with
    | [] => []
    | first :: [] => first :: 'e' :: layout.exponentText (point - 1)
    | first :: rest => first :: '.' :: (rest ++ 'e' :: layout.exponentText (point - 1))

end DecimalLayout

/-- A double taken apart: its sign, and its class or its binary digits. -/
inductive DoubleParts where
  | notANumber
  | infinite (negative : Bool)
  | finite (negative : Bool) (mantissa : Nat) (exponent : Int)

def hiddenBit : Nat := 0x10000000000000

def DoubleParts.ofBits (bits : UInt64) : DoubleParts :=
  let negative : Bool := bits.toNat / 0x8000000000000000 = 1
  let biased : Nat := bits.toNat / hiddenBit % 2048
  let fraction : Nat := bits.toNat % hiddenBit
  if biased = 2047 then
    if fraction = 0 then .infinite negative else .notANumber
  else if biased = 0 then .finite negative fraction (-1074)
  else .finite negative (hiddenBit + fraction) ((biased : Int) - 1075)

def DecimalLayout.text (layout : DecimalLayout) (number : Float) : String :=
  match DoubleParts.ofBits number.toBits with
  | .notANumber => "nan"
  | .infinite negative => if negative then "-inf" else "inf"
  | .finite negative mantissa exponent =>
      let digits :=
        if mantissa = 0 then layout.layOut ['0'] 1
        else
          let narrowBelow := mantissa = hiddenBit ∧ -1074 < exponent
          let shortest := shortestDigits (.ofBinary mantissa exponent narrowBelow)
          layout.layOut shortest.1 shortest.2
      String.ofList (if negative then '-' :: digits else digits)

end Permits.Text
