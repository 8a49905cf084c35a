import Permits.Value.Calendar
import Permits.Text.Quoted
import Permits.Text.Shortest

set_option autoImplicit false

namespace Permits

/-- A value that holds no other value. Only these are keys of a mapping. -/
inductive Scalar where
  | null
  | bool (value : Bool)
  | int (value : Int)
  | float (value : Float)
  | text (value : String)
  | date (value : Date)
  | moment (value : Moment)

/-- A configuration value. Mappings keep the order of their keys. -/
inductive Value where
  | scalar (value : Scalar)
  | list (items : List Value)
  | map (entries : List (Scalar × Value))

namespace Scalar

/-- Floats are positional between a ten-thousandth and ten to the sixteenth, always with a point;
outside they have an exponent of at least two digits. -/
def floatLayout : Text.DecimalLayout := ⟨-3, 16, 2⟩

/-- The text of a scalar in a message. A whole number that is read from a document is never too long
to be written. -/
def display : Scalar → String
  | null => "None"
  | bool value => if value then "True" else "False"
  | int value => toString value
  | float value => floatLayout.text value
  | text value => Text.quoted value
  | date value => value.display
  | moment value => value.display

def plain : Scalar → String
  | text value => value
  | date value => value.text
  | moment value => value.text
  | other => other.display

/-- Whether a scalar counts as nothing: null, false, zero and the empty text do. -/
def isEmpty : Scalar → Bool
  | null => true
  | bool value => !value
  | int value => value == 0
  | float value => value == 0.0
  | text value => value == ""
  | date _ => false
  | moment _ => false

end Scalar

namespace Value

def ofText (text : String) : Value := scalar (.text text)

mutual

def display : Value → String
  | scalar value => value.display
  | list items => Text.bracketed "[" "]" (displayItems items)
  | map entries => Text.bracketed "\x7b" "\x7d" (displayEntries entries)

def displayItems : List Value → List String
  | [] => []
  | item :: rest => display item :: displayItems rest

/-- The texts of the entries of a mapping, key and value with a colon between them. -/
def displayEntries : List (Scalar × Value) → List String
  | [] => []
  | (key, value) :: rest => (key.display ++ ": " ++ display value) :: displayEntries rest

end

def plain : Value → String
  | scalar value => value.plain
  | other => other.display

/-- Whether a value counts as nothing: empty collections do, and the empty scalars. -/
def isEmpty : Value → Bool
  | scalar value => value.isEmpty
  | list items => items.isEmpty
  | map entries => entries.isEmpty

/-- The parts that a value is read as when its parts are wanted: the items of a list, the
characters of a text and the keys of a mapping. Nothing else has parts. -/
def parts? : Value → Option (List Value)
  | list items => some items
  | map entries => some (entries.map fun entry => scalar entry.1)
  | scalar (.text text) => some (text.toList.map fun c => ofText (String.singleton c))
  | scalar _ => none

@[simp] theorem parts?_list (items : List Value) : (list items).parts? = some items := rfl

end Value

end Permits
