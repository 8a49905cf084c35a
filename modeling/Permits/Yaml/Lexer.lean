import Permits.Yaml.Block
import Permits.Yaml.Label
import Permits.Yaml.Plain
import Permits.Yaml.Quoted

set_option autoImplicit false

namespace Permits.Yaml

/-- A place where a key without a question mark may have started: the number of tokens before it,
and its position. A key that starts a line of a block mapping must turn out to be one. -/
structure KeyStart where
  index : Nat
  required : Bool
  left : Nat
  line : Nat
  column : Nat

/-- The state of the reading. The margin is the least column of what belongs to the innermost block
collection beyond its own items. There is a possible key for each open bracket and one outside. -/
structure Lexer where
  cursor : Cursor
  tokens : Array Token
  margin : Nat
  outerMargins : List Nat
  key : Option KeyStart
  outerKeys : List (Option KeyStart)
  keyAllowed : Bool

namespace Lexer

def start (text : List Char) : Lexer :=
  let cursor := Cursor.start text
  let cursor := if cursor.peek = byteOrderMark then cursor.next else cursor
  ⟨cursor, #[], 0, [], none, [], true⟩

def inFlow (lexer : Lexer) : Bool := !lexer.outerKeys.isEmpty

def emit (lexer : Lexer) (token : Token) : Lexer := { lexer with tokens := lexer.tokens.push token }

def moveTo (lexer : Lexer) (cursor : Cursor) : Lexer := { lexer with cursor }

def keys (lexer : Lexer) : List KeyStart := (lexer.key :: lexer.outerKeys).filterMap id

/-- The tokens that no colon can change any more: those before the first possible key. -/
def settled (lexer : Lexer) : List Token :=
  (lexer.tokens.take (lexer.keys.foldl (fun count key => min count key.index)
    lexer.tokens.size)).toList

/-- Whether a possible key is none any more: keys lie on one line and are not longer than 1024
characters. -/
def isStale (lexer : Lexer) (key : KeyStart) : Bool :=
  key.line ≠ lexer.cursor.line || key.left - lexer.cursor.left > 1024

def dropStale (lexer : Lexer) : Except Fault Lexer :=
  if lexer.keys.any fun key => key.required && lexer.isStale key then .error .malformed
  else
    let fresh := fun (key : Option KeyStart) => key.filter (!lexer.isStale ·)
    .ok { lexer with key := fresh lexer.key, outerKeys := lexer.outerKeys.map fresh }

def dropKey (lexer : Lexer) : Except Fault Lexer :=
  if lexer.key.any (·.required) then .error .malformed
  else .ok { lexer with key := none }

def markKey (lexer : Lexer) : Except Fault Lexer :=
  if lexer.keyAllowed then do
    let lexer ← lexer.dropKey
    let place := lexer.cursor
    let required := !lexer.inFlow && lexer.margin = place.column + 1
    return { lexer with
      key := some ⟨lexer.tokens.size, required, place.left, place.line, place.column⟩ }
  else .ok lexer

/-- Adds the ends of the block collections whose margin is greater than a limit, from the innermost
one outwards. What stays open is left. -/
def closeFrom (limit : Nat) (tokens : Array Token) (margin : Nat) :
    List Nat → Array Token × Nat × List Nat
  | [] => (tokens, margin, [])
  | outer :: rest =>
      if margin > limit then closeFrom limit (tokens.push .blockEnd) outer rest
      else (tokens, margin, outer :: rest)

/-- Ends the block collections whose margin is greater than a limit. Inside of brackets there are
none to end. -/
def closeBlocks (lexer : Lexer) (limit : Nat) : Lexer :=
  if lexer.inFlow then lexer
  else
    let (tokens, margin, outerMargins) :=
      closeFrom limit lexer.tokens lexer.margin lexer.outerMargins
    { lexer with tokens, margin, outerMargins }

/-- Starts a block collection at a column, unless it is open already. The token of the start is put
before the tokens from `index` on. -/
def openBlock (lexer : Lexer) (column index : Nat) (token : Token) : Lexer :=
  if !lexer.inFlow ∧ lexer.margin ≤ column then
    { lexer with
      tokens := lexer.tokens.insertIdxIfInBounds index token
      margin := column + 1
      outerMargins := lexer.margin :: lexer.outerMargins }
  else lexer

/-- The place of the next token, past spaces, comments and lines. Outside of brackets a new line
allows keys. -/
def skipToToken (cursor : Cursor) (crossed : Bool) : Cursor × Bool :=
  let after := (cursor.skip (· = ' ')).skipComment
  match after.lineBreak? with
  | none => (after, crossed)
  | some (_, next) =>
      if next.left < cursor.left then skipToToken next true else (after, crossed)
termination_by cursor.left

def readBoundary (lexer : Lexer) (token : Token) (after : Cursor) : Except Fault Lexer := do
  let lexer ← (lexer.closeBlocks 0).dropKey
  return { lexer.emit token with keyAllowed := false, cursor := after }

def readOpening (lexer : Lexer) (token : Token) : Except Fault Lexer := do
  let lexer ← lexer.markKey
  return { lexer.emit token with
    key := none
    outerKeys := lexer.key :: lexer.outerKeys
    keyAllowed := true
    cursor := lexer.cursor.next }

def readClosing (lexer : Lexer) (token : Token) : Except Fault Lexer := do
  let lexer ← lexer.dropKey
  return { lexer.emit token with
    key := lexer.outerKeys.headD none
    outerKeys := lexer.outerKeys.tail
    keyAllowed := false
    cursor := lexer.cursor.next }

def readComma (lexer : Lexer) : Except Fault Lexer := do
  let lexer ← lexer.dropKey
  return { lexer.emit .flowEntry with keyAllowed := true, cursor := lexer.cursor.next }

def readEntry (lexer : Lexer) : Except Fault Lexer := do
  if !lexer.inFlow ∧ !lexer.keyAllowed then throw .malformed
  let opened := lexer.openBlock lexer.cursor.column lexer.tokens.size .blockSequenceStart
  let lexer ← opened.dropKey
  return { lexer.emit .blockEntry with keyAllowed := true, cursor := lexer.cursor.next }

def readKey (lexer : Lexer) : Except Fault Lexer := do
  if !lexer.inFlow ∧ !lexer.keyAllowed then throw .malformed
  let opened := lexer.openBlock lexer.cursor.column lexer.tokens.size .blockMappingStart
  let lexer ← opened.dropKey
  return { lexer.emit .key with keyAllowed := !lexer.inFlow, cursor := lexer.cursor.next }

def readColon (lexer : Lexer) : Except Fault Lexer :=
  match lexer.key with
  | some key =>
      let keyed := { lexer with tokens := lexer.tokens.insertIdxIfInBounds key.index .key }
      let opened := keyed.openBlock key.column key.index .blockMappingStart
      .ok { opened.emit .value with key := none, keyAllowed := false, cursor := lexer.cursor.next }
  | none => do
      if !lexer.inFlow ∧ !lexer.keyAllowed then throw .malformed
      let opened := lexer.openBlock lexer.cursor.column lexer.tokens.size .blockMappingStart
      let lexer ← opened.dropKey
      return { lexer.emit .value with keyAllowed := !lexer.inFlow, cursor := lexer.cursor.next }

def readStart (lexer : Lexer) (read : Cursor → Except Fault (Token × Cursor)) :
    Except Fault Lexer := do
  let lexer ← lexer.markKey
  let (token, after) ← read lexer.cursor
  return { lexer.emit token with keyAllowed := false, cursor := after }

def readName (lexer : Lexer) (token : String → Token) : Except Fault Lexer :=
  lexer.readStart fun cursor =>
    (Label.name cursor.next).map fun (name, after) => (token name, after)

def readQuoted (lexer : Lexer) : Except Fault Lexer :=
  lexer.readStart fun cursor =>
    (Quoted.read cursor).map fun (text, after) => (.scalar text false, after)

def readBlock (lexer : Lexer) : Except Fault Lexer := do
  let lexer ← lexer.dropKey
  let (text, after) ← Block.read lexer.margin lexer.cursor
  return { lexer.emit (.scalar text false) with keyAllowed := true, cursor := after }

def readPlain (lexer : Lexer) : Except Fault Lexer := do
  let lexer ← lexer.markKey
  let (text, crossed, after) := Plain.read lexer.inFlow lexer.margin lexer.cursor
  return { lexer.emit (.scalar text true) with keyAllowed := crossed, cursor := after }

/-- The characters that start no plain text, unless some of them stand before a text. -/
def isIndicator (c : Char) : Bool :=
  isGap c || "-?:,[]\x7b\x7d#&*!|>\x27\x22%@\x60".toList.contains c

def readToken (lexer : Lexer) : Except Fault Lexer :=
  let cursor := lexer.cursor
  let c := cursor.peek
  let beforeGap := isGap (cursor.peekAt 1)
  let atLineStart := cursor.column = 0
  if c = '%' ∧ atLineStart then do
    let (token, after) ← Label.directive cursor
    lexer.readBoundary token after
  else if atLineStart ∧ cursor.atBoundary '-' then
    lexer.readBoundary .documentStart (cursor.forward 3)
  else if atLineStart ∧ cursor.atBoundary '.' then
    lexer.readBoundary .documentEnd (cursor.forward 3)
  else if c = '[' then lexer.readOpening .flowSequenceStart
  else if c = '\x7b' then lexer.readOpening .flowMappingStart
  else if c = ']' then lexer.readClosing .flowSequenceEnd
  else if c = '\x7d' then lexer.readClosing .flowMappingEnd
  else if c = ',' then lexer.readComma
  else if c = '-' ∧ beforeGap then lexer.readEntry
  else if c = '?' ∧ (lexer.inFlow ∨ beforeGap) then lexer.readKey
  else if c = ':' ∧ (lexer.inFlow ∨ beforeGap) then lexer.readColon
  else if c = '*' then lexer.readName .alias
  else if c = '&' then lexer.readName .anchor
  else if c = '!' then lexer.readStart Label.tag
  else if (c = '|' ∨ c = '>') ∧ !lexer.inFlow then lexer.readBlock
  else if c = '\x27' ∨ c = '\x22' then lexer.readQuoted
  else if !isIndicator c ∨ (!beforeGap ∧ (c = '-' ∨ (!lexer.inFlow ∧ (c = '?' ∨ c = ':')))) then
    lexer.readPlain
  else .error .malformed

def finish (lexer : Lexer) : Except Fault Lexer := do
  let lexer ← (lexer.closeBlocks 0).dropKey
  return { lexer.emit .streamEnd with outerKeys := [] }

def step (lexer : Lexer) : Except Fault Lexer := do
  let (cursor, crossed) := skipToToken lexer.cursor false
  let lexer := { lexer with
    cursor, keyAllowed := lexer.keyAllowed || (crossed && !lexer.inFlow) }
  let lexer ← lexer.dropStale
  let lexer := lexer.closeBlocks (cursor.column + 1)
  if cursor.atEnd then lexer.finish else lexer.readToken

def run (lexer : Lexer) : TokenStream :=
  match lexer.dropStale with
  | .error fault => ⟨lexer.settled, some fault⟩
  | .ok fresh =>
      match fresh.step with
      | .error fault => ⟨fresh.settled, some fault⟩
      | .ok next =>
          if next.tokens.back? = some .streamEnd then ⟨next.tokens.toList, none⟩
          else if next.cursor.left < lexer.cursor.left then run next
          else ⟨next.settled, some .malformed⟩
termination_by lexer.cursor.left

end Lexer

/-- The tokens of a text. A text with characters that no document holds has none. -/
def TokenStream.ofText (text : String) : TokenStream :=
  let cs := text.toList
  if cs.all isDocumentChar then (Lexer.start cs).run else ⟨[], some .malformed⟩

end Permits.Yaml
