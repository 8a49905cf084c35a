import Permits.Value.Basic

set_option autoImplicit false

namespace Permits

/-- The size of a number, exactly. -/
inductive Magnitude where
  | below
  | exact (mantissa exponent : Int)
  | above
  | none

namespace Magnitude

def ofDouble (number : Float) : Magnitude :=
  match Text.DoubleParts.ofBits number.toBits with
  | .notANumber => none
  | .infinite negative => if negative then below else above
  | .finite negative mantissa exponent =>
      exact (if negative then -mantissa else mantissa) exponent

def compare? : Magnitude → Magnitude → Option Ordering
  | none, _ => Option.none
  | _, none => Option.none
  | below, below => some .eq
  | below, _ => some .lt
  | _, below => some .gt
  | above, above => some .eq
  | above, _ => some .gt
  | _, above => some .lt
  | exact m e, exact n f =>
      let scale := min e f
      let scaled := fun (mantissa exponent : Int) =>
        mantissa * (Nat.pow 2 (exponent - scale).toNat : Nat)
      some (compare (scaled m e) (scaled n f))

end Magnitude

/-- What a scalar is compared with. -/
inductive Family where
  | null
  | number
  | text
  | date
  | moment
  | offsetMoment
  deriving DecidableEq

namespace Scalar

def family : Scalar → Family
  | null => .null
  | bool _ => .number
  | int _ => .number
  | float _ => .number
  | text _ => .text
  | date _ => .date
  | moment value => if value.offset.isSome then .offsetMoment else .moment

def magnitude : Scalar → Magnitude
  | bool value => .exact (if value then 1 else 0) 0
  | int value => .exact value 0
  | float value => .ofDouble value
  | _ => .none

def compare? : Scalar → Scalar → Option Ordering
  | null, null => some .eq
  | text first, text second => some (compare first second)
  | date first, date second => some (compare first.dayNumber second.dayNumber)
  | moment first, moment second =>
      if first.offset.isSome = second.offset.isSome then
        some (compare first.instant second.instant)
      else Option.none
  | first, second => first.magnitude.compare? second.magnitude

def sameKey (first second : Scalar) : Bool := first.compare? second == some .eq

/-- Scalars in ascending order, if all of them are of one family and there is more than one to put
in order. A single null is in order; nulls do not come twice. -/
def sort? (scalars : List Scalar) : Option (List Scalar) :=
  match scalars with
  | [] => some []
  | [only] => some [only]
  | first :: rest =>
      if rest.all (·.family = first.family) then
        some (scalars.mergeSort fun left right => left.compare? right != some .gt)
      else Option.none

end Scalar

namespace Value

def lookup? (key : Scalar) (entries : List (Scalar × Value)) : Option Value :=
  (entries.find? fun entry => entry.1.sameKey key).map Prod.snd

/-- Puts a value under a key: in the place of the key if it is present, else at the end. -/
def put (key : Scalar) (value : Value) : List (Scalar × Value) → List (Scalar × Value)
  | [] => [(key, value)]
  | (other, old) :: rest =>
      if other.sameKey key then (other, value) :: rest else (other, old) :: put key value rest

end Value

end Permits
