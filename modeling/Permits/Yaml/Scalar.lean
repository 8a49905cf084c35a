import Permits.Text.Blank
import Permits.Text.Decimal
import Permits.Value.Basic
import Permits.Yaml.Fault
import Permits.Yaml.Timestamp

set_option autoImplicit false

namespace Permits.Yaml

/-- The kinds of nodes that the language defines, and any other. -/
inductive Kind where
  | null
  | bool
  | int
  | float
  | timestamp
  | text
  | sequence
  | mapping
  /-- The key whose value is merged into the mapping. -/
  | merge
  /-- The key of the value that stands for the whole mapping. -/
  | default
  | foreign
  deriving DecidableEq

def languageAddress : String := "tag:yaml.org,2002:"

namespace Kind

def named : List (String × Kind) :=
  [("null", null), ("bool", bool), ("int", int), ("float", float), ("timestamp", timestamp),
    ("str", text), ("seq", sequence), ("map", mapping), ("merge", merge), ("value", default)]

/-- The kinds of the language whose values are not read here. -/
def unreadNames : List String := ["binary", "omap", "pairs", "set"]

def ofTag (tag : String) : Kind :=
  (named.findSome? fun (name, kind) =>
    if tag = languageAddress ++ name then some kind else none).getD foreign

end Kind

def isRun (inClass : Char → Bool) (cs : List Char) : Bool := !cs.isEmpty && cs.all inClass

def isDigitOrLow (c : Char) : Bool := c.isDigit || c = '_'

def unsigned : List Char → Bool × List Char
  | '-' :: rest => (true, rest)
  | '+' :: rest => (false, rest)
  | cs => (false, cs)

def isDigits (cs : List Char) : Bool := cs.head?.any Char.isDigit && cs.all isDigitOrLow

def isSixtieth : List Char → Bool
  | [c] => c.isDigit
  | [c, d] => c.isDigit && c < '6' && d.isDigit
  | _ => false

def isSexagesimal (cs : List Char) : Bool :=
  match cs.splitOn ':' with
  | first :: second :: rest => isDigits first && (second :: rest).all isSixtieth
  | _ => false

def isIntText (cs : List Char) : Bool :=
  match (unsigned cs).2 with
  | ['0'] => true
  | '0' :: 'b' :: rest => isRun (fun c => c = '0' || c = '1' || c = '_') rest
  | '0' :: 'x' :: rest =>
      isRun (fun c => c.isDigit || ('a' ≤ c && c ≤ 'f') || ('A' ≤ c && c ≤ 'F') || c = '_') rest
  | '0' :: rest => isRun (fun c => ('0' ≤ c && c ≤ '7') || c = '_') rest
  | body => isDigits body || isSexagesimal body

def isExponent : List Char → Bool
  | [] => true
  | mark :: sign :: digits =>
      (mark = 'e' || mark = 'E') && (sign = '+' || sign = '-') && isRun Char.isDigit digits
  | _ => false

def isFloatText (cs : List Char) : Bool :=
  let (_, body) := unsigned cs
  let whole := body.takeWhile (· ≠ '.')
  match body.dropWhile (· ≠ '.') with
  | [] => false
  | _ :: fraction =>
      let digits := fraction.takeWhile isDigitOrLow
      let tail := fraction.dropWhile isDigitOrLow
      let word := String.ofList fraction
      if whole.isEmpty then
        ["inf", "Inf", "INF"].contains word ||
          (body.length = cs.length &&
            (["nan", "NaN", "NAN"].contains word || (isDigits digits && isExponent tail)))
      else (isDigits whole && isExponent tail) || (isSexagesimal whole && tail.isEmpty)

def boolWords : List (String × Bool) :=
  [("yes", true), ("no", false), ("true", true), ("false", false), ("on", true), ("off", false)]

def lowered (text : String) : String := String.ofList (text.toList.map Char.toLower)

def isSpelling (text word : String) : Bool :=
  let letters := word.toList
  let capital := (letters.take 1).map Char.toUpper ++ letters.drop 1
  text = word || text = String.ofList (letters.map Char.toUpper) || text = String.ofList capital

/-- The kind of a plain scalar by its text. A line feed at the very end is not looked at. -/
def Kind.ofPlain (text : String) : Kind :=
  let cs := if text.toList.getLast? = some '\n' then text.toList.dropLast else text.toList
  let shown := String.ofList cs
  if text.isEmpty then null
  else if boolWords.any fun (word, _) => isSpelling shown word then bool
  else if isFloatText cs then float
  else if isIntText cs then int
  else if shown = "<<" then merge
  else if shown = "~" || isSpelling shown "null" then null
  else if Timestamp.isWritten cs then timestamp
  else if shown = "=" then default
  -- A sign of a label is only met here in quotes, behind a lone exclamation mark.
  else if ["!", "&", "*"].contains shown then foreign
  else Kind.text

namespace Number

def dropMark (base : Nat) : List Char → List Char
  | '0' :: mark :: rest =>
      let marks := if base = 2 then ['b', 'B'] else if base = 8 then ['o', 'O'] else ['x', 'X']
      if base ≠ 10 ∧ mark ∈ marks then rest else '0' :: mark :: rest
  | cs => cs

/-- A whole number in a base, with blanks around it, a sign and a mark of the base allowed. -/
def whole? (base : Nat) (cs : List Char) : Option Int :=
  let (negative, body) := unsigned (Text.numeral cs)
  let digits := dropMark base body
  if base = 10 ∧ Text.mostDigits < digits.length then none
  else (Text.digits? base digits).map fun value => if negative then -(value : Int) else value

/-- A decimal number or one of the words for what is none, with blanks and a sign allowed. -/
def decimal? (cs : List Char) : Option Float :=
  let (negative, body) := unsigned (Text.numeral cs)
  let size : Option Float :=
    match String.ofList body with
    | "inf" => some (1.0 / 0.0)
    | "infinity" => some (1.0 / 0.0)
    | "nan" => some (0.0 / 0.0)
    | _ => (Text.Decimal.read? body).map Text.Decimal.toDouble
  size.map fun value => if negative then -value else value

def isOverlong (value : Int) : Bool := Nat.pow 10 Text.mostDigits ≤ value.natAbs

/-- The whole number that a scalar is read as. One that is not written in decimal digits can be
overlong. -/
def readInt (text : String) : Except Fault Int :=
  let cs := text.toList.filter (· ≠ '_')
  let (negative, body) := unsigned cs
  if body.isEmpty then .error (.scalar .nothingWritten)
  else
    let size : Option Int :=
      match body with
      | ['0'] => some 0
      | '0' :: 'b' :: rest => whole? 2 rest
      | '0' :: 'x' :: rest => whole? 16 rest
      | '0' :: rest => whole? 8 ('0' :: rest)
      | _ =>
          if body.contains ':' then
            (body.splitOn ':').foldl (fun sum part =>
              sum.bind fun value => (whole? 10 part).map (value * 60 + ·)) (some 0)
          else whole? 10 body
    match size with
    | some value =>
        if isOverlong value then .error .unsupported
        else .ok (if negative then -value else value)
    | none => .error (.scalar .noSuchValue)

/-- The most parts of a number in sixtieths: a double holds no greater power of sixty. -/
def mostParts : Nat := 174

def sixtieths (parts : List Float) : Float :=
  (parts.reverse.foldl (fun (sum, base) part =>
      (sum + part * (Text.Decimal.mk base 0).toDouble, base * 60))
    ((0.0 : Float), 1)).1

def readFloat (text : String) : Except ScalarFault Float :=
  let cs := (lowered text).toList.filter (· ≠ '_')
  let (negative, body) := unsigned cs
  if cs.isEmpty then .error .nothingWritten
  else
    let sizes : Option (List Float) :=
      match String.ofList body with
      | ".inf" => some [1.0 / 0.0]
      | ".nan" => some [0.0 / 0.0]
      | _ => (body.splitOn ':').mapM decimal?
    match sizes with
    | some [value] => .ok (if negative then -value else value)
    | some parts =>
        if mostParts < parts.length then .error .numberTooLarge
        else .ok (if negative then -sixtieths parts else sixtieths parts)
    | none => .error .noSuchValue

end Number

def readTimestamp (text : String) : Except ScalarFault Scalar :=
  let cs := if text.toList.getLast? = some '\n' then text.toList.dropLast else text.toList
  match Timestamp.read? cs with
  | none => .error .noDateForm
  | some found =>
      let value := (Date.make? found.year found.month found.day).bind fun date =>
        match found.time with
        | none => some (.date date)
        | some time =>
            (Moment.make? date time.hour time.minute time.second time.microsecond
              time.offset).map .moment
      value.elim (.error .noSuchValue) .ok

/-- The value of a scalar of a kind. Scalars cannot be collections, and the two special keys are no
values. -/
def Kind.readScalar (kind : Kind) (text : String) : Except Fault Scalar :=
  match kind with
  | .null => .ok .null
  | .bool =>
      match boolWords.lookup (lowered text) with
      | some value => .ok (.bool value)
      | none => .error (.scalar .noSuchWord)
  | .int => (Number.readInt text).map Scalar.int
  | .float => (Number.readFloat text).map Scalar.float |>.mapError Fault.scalar
  | .timestamp => (readTimestamp text).mapError Fault.scalar
  | .text => .ok (.text text)
  | _ => .error .malformed

end Permits.Yaml
