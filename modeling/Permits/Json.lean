import Permits.Text.Quoted

set_option autoImplicit false

namespace Permits

/-- A JSON document. -/
inductive Json where
  | null
  | bool (value : Bool)
  | int (value : Int)
  | text (value : String)
  | list (items : List Json)
  | object (members : List (String × Json))

namespace Json

def unitEscape (unit : Nat) : List Char := '\\' :: 'u' :: Text.hexDigits 4 unit

/-- A character inside quotes. What is not printable ASCII is written by its UTF-16 units. -/
def escapeChar (c : Char) : List Char :=
  if c = '\x22' ∨ c = '\\' then ['\\', c]
  else if 32 ≤ c.toNat ∧ c.toNat < 127 then [c]
  else if c = '\n' then ['\\', 'n']
  else if c = '\r' then ['\\', 'r']
  else if c = '\t' then ['\\', 't']
  else if c.toNat = 8 then ['\\', 'b']
  else if c.toNat = 12 then ['\\', 'f']
  else if c.toNat < 0x10000 then unitEscape c.toNat
  else
    let above := c.toNat - 0x10000
    unitEscape (0xD800 + above / 0x400) ++ unitEscape (0xDC00 + above % 0x400)

def quoteText (text : String) : String :=
  String.ofList ('\x22' :: text.toList.flatMap escapeChar ++ ['\x22'])

mutual

def compact : Json → String
  | null => "null"
  | bool value => if value then "true" else "false"
  | int value => toString value
  | text value => quoteText value
  | list items => "[" ++ ", ".intercalate (compactItems items) ++ "]"
  | object members => "\x7b" ++ ", ".intercalate (compactMembers members) ++ "\x7d"

def compactItems : List Json → List String
  | [] => []
  | item :: rest => compact item :: compactItems rest

def compactMembers : List (String × Json) → List String
  | [] => []
  | (name, value) :: rest => (quoteText name ++ ": " ++ compact value) :: compactMembers rest

end

def block (depth : Nat) (opening closing : String) (lines : List String) : String :=
  if lines.isEmpty then opening ++ closing
  else
    let inner := "\n" ++ String.ofList (List.replicate (2 * (depth + 1)) ' ')
    let outer := "\n" ++ String.ofList (List.replicate (2 * depth) ' ')
    opening ++ inner ++ ("," ++ inner).intercalate lines ++ outer ++ closing

mutual

def indented (depth : Nat) : Json → String
  | list items => block depth "[" "]" (indentedItems depth items)
  | object members => block depth "\x7b" "\x7d" (indentedMembers depth members)
  | null => compact null
  | bool value => compact (bool value)
  | int value => compact (int value)
  | text value => compact (text value)

def indentedItems (depth : Nat) : List Json → List String
  | [] => []
  | item :: rest => indented (depth + 1) item :: indentedItems depth rest

def indentedMembers (depth : Nat) : List (String × Json) → List String
  | [] => []
  | (name, value) :: rest =>
      (quoteText name ++ ": " ++ indented (depth + 1) value) :: indentedMembers depth rest

end

end Json

end Permits
