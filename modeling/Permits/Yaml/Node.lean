import Permits.Yaml.Scalar
import Permits.Yaml.Token

set_option autoImplicit false

namespace Permits.Yaml

/-- A node. Mappings keep their entries in order, with equal keys as well. -/
inductive Node where
  | scalar (kind : Kind) (text : String)
  | sequence (kind : Kind) (items : List Node)
  | mapping (kind : Kind) (entries : List (Node × Node))

namespace Node

def missing : Node := scalar .null ""

def kind : Node → Kind
  | scalar kind _ => kind
  | sequence kind _ => kind
  | mapping kind _ => kind

/-- The state of reading nodes: what is still to be read, what is met behind it, the addresses of
tag handles, and the nodes of anchors, where they are read already. -/
structure Source where
  tokens : List Token
  ending : Fault
  handles : List (String × String)
  anchors : List (String × Option Node)
  /-- Whether there was a key of the value that stands for a mapping. Such a key changes its kind
  once its mapping is read, also where an alias stands for it. -/
  changing : Bool

abbrev Reader (α : Type) : Type := StateT Source (Except Fault) α

/-- Where a node stands. A sequence that is the value of a key need not be indented. -/
inductive Place where
  | block
  | blockValue
  | flow
  deriving DecidableEq

def commonHandles : List (String × String) := [("!", "!"), ("!!", languageAddress)]

def peek : Reader Token := fun source =>
  match source.tokens with
  | [] => .error source.ending
  | token :: _ => .ok (token, source)

def advance : Reader Unit := fun source => .ok ((), { source with tokens := source.tokens.tail })

def expect (token : Token) : Reader Unit := do
  if (← peek) = token then advance else throw .malformed

def accept (token : Token) : Reader Bool := do
  if (← peek) = token then
    advance
    return true
  else return false

/-- Names a node, or a collection that is being read. No name is given twice. -/
def nameFresh (anchor : Option String) (node : Option Node) : Reader Unit := fun source =>
  match anchor with
  | none => .ok ((), source)
  | some name =>
      if (source.anchors.lookup name).isSome then .error .malformed
      else .ok ((), { source with anchors := (name, node) :: source.anchors })

def rename (anchor : Option String) (node : Node) : Reader Unit := fun source =>
  match anchor with
  | none => .ok ((), source)
  | some name => .ok ((), { source with anchors := (name, some node) :: source.anchors })

/-- The node of an alias. A node that holds itself is not read here, and neither is an alias that
may stand for a key that changes. -/
def named (name : String) : Reader Node := do
  let source ← get
  match source.anchors.lookup name with
  | some (some node) => if source.changing then throw .unsupported else return node
  | some none => throw .unsupported
  | none => throw .malformed

def notice (kind : Kind) : Reader Unit :=
  modify fun source => { source with changing := source.changing || kind = .default }

def labels : Reader (Option String × Option (Option String × String)) := do
  match ← peek with
  | .anchor name => do
      advance
      match ← peek with
      | .tag handle suffix => advance; return (some name, some (handle, suffix))
      | _ => return (some name, none)
  | .tag handle suffix => do
      advance
      match ← peek with
      | .anchor name => advance; return (some name, some (handle, suffix))
      | _ => return (none, some (handle, suffix))
  | _ => return (none, none)

def checkTag (tag : String) : Reader (Option String) :=
  if (Kind.unreadNames.map (languageAddress ++ ·)).contains tag then throw .unsupported
  else return some tag

/-- A tag with its handle replaced by the address. A lone exclamation mark is as good as none. -/
def resolveTag : Option (Option String × String) → Reader (Option String)
  | none => return none
  | some (none, suffix) => checkTag suffix
  | some (some handle, suffix) => do
      match (← get).handles.lookup handle with
      | some address => checkTag (address ++ suffix)
      | none => throw .malformed

def collectionKind (usual : Kind) (tag : Option String) : Kind :=
  match tag with
  | none => usual
  | some tag => if tag = "!" then usual else .ofTag tag

/-- The kind of a scalar. Its text decides it if it is plain and has no tag. -/
def scalarKind (tag : Option String) ( isPlain : Bool) (text : String) : Kind :=
  match tag with
  | none => if isPlain then .ofPlain text else .text
  | some tag => if tag = "!" then .ofPlain text else .ofTag tag

def ofText (anchor : Option String) (kind : Kind) (text : String) : Reader Node := do
  notice kind
  nameFresh anchor (some (scalar kind text))
  return scalar kind text

/-- Reads a node, unless one of some tokens comes next: then nothing is written. -/
def orMissing (stops : List Token) (read : Reader Node) : Reader Node := do
  if stops.contains (← peek) then return missing else read

def collect {α : Type} (anchor : Option String) (kind : Kind) (make : Kind → List α → Node)
    (read : Reader (List α)) : Reader Node := do
  notice kind
  nameFresh anchor none
  let node := make kind (← read)
  rename anchor node
  return node

mutual

/-- Reads a node. Every level of the reading passes a token, so `fuel` never runs out if it is the
number of tokens and a little more. -/
def read (fuel : Nat) (place : Place) : Reader Node :=
  match fuel with
  | 0 => throw .malformed
  | fuel + 1 => do
    match ← peek with
    | .alias name =>
        advance
        named name
    | _ =>
        let (anchor, written) ← labels
        let tag ← resolveTag written
        let sequence := fun (items : Reader (List Node)) =>
          collect anchor (collectionKind .sequence tag) sequence items
        let mapping := fun (entries : Reader (List (Node × Node))) =>
          collect anchor (collectionKind .mapping tag) mapping entries
        let isBlock := place ≠ .flow
        match ← peek, place with
        | .blockEntry, .blockValue => sequence (readEntries fuel false)
        | .scalar text isPlain, _ =>
            advance
            ofText anchor (scalarKind tag isPlain text) text
        | .flowSequenceStart, _ => sequence (do advance; readFlowItems fuel true)
        | .flowMappingStart, _ => mapping (do advance; readFlowPairs fuel true)
        | token, _ =>
            if token = .blockSequenceStart ∧ isBlock then
              sequence (do advance; readEntries fuel true)
            else if token = .blockMappingStart ∧ isBlock then
              mapping (do advance; readPairs fuel)
            else if anchor.isSome ∨ tag.isSome then ofText anchor (scalarKind tag true "") ""
            else throw .malformed

/-- Reads the items of a block sequence. One that is not indented has no token at its end. -/
def readEntries (fuel : Nat) (indented : Bool) : Reader (List Node) :=
  match fuel with
  | 0 => throw .malformed
  | fuel + 1 => do
    if ← accept .blockEntry then
      let stops :=
        if indented then [.blockEntry, .blockEnd] else [.blockEntry, .key, .value, .blockEnd]
      let item ← orMissing stops (read fuel .block)
      return item :: (← readEntries fuel indented)
    else
      if indented then expect .blockEnd
      return []

def readPairs (fuel : Nat) : Reader (List (Node × Node)) :=
  match fuel with
  | 0 => throw .malformed
  | fuel + 1 => do
    let stops := [.key, .value, .blockEnd]
    if ← accept .key then
      let key ← orMissing stops (read fuel .blockValue)
      let value ←
        if ← accept .value then orMissing stops (read fuel .blockValue) else pure missing
      return (key, value) :: (← readPairs fuel)
    else
      expect .blockEnd
      return []

/-- Reads the items of a sequence in brackets, where an entry is an item of its own. -/
def readFlowItems (fuel : Nat) (first : Bool) : Reader (List Node) :=
  match fuel with
  | 0 => throw .malformed
  | fuel + 1 => do
    if ← accept .flowSequenceEnd then return []
    if !first then expect .flowEntry
    let stops := [.flowEntry, .flowSequenceEnd]
    if ← accept .flowSequenceEnd then return []
    if ← accept .key then
      let key ← orMissing (.value :: stops) (read fuel .flow)
      let value ← if ← accept .value then orMissing stops (read fuel .flow) else pure missing
      return mapping .mapping [(key, value)] :: (← readFlowItems fuel false)
    else
      let item ← read fuel .flow
      return item :: (← readFlowItems fuel false)

/-- Reads the entries of a mapping in brackets, where a value may be missing. -/
def readFlowPairs (fuel : Nat) (first : Bool) : Reader (List (Node × Node)) :=
  match fuel with
  | 0 => throw .malformed
  | fuel + 1 => do
    if ← accept .flowMappingEnd then return []
    if !first then expect .flowEntry
    let stops := [.flowEntry, .flowMappingEnd]
    if ← accept .flowMappingEnd then return []
    if ← accept .key then
      let key ← orMissing (.value :: stops) (read fuel .flow)
      let value ← if ← accept .value then orMissing stops (read fuel .flow) else pure missing
      return (key, value) :: (← readFlowPairs fuel false)
    else
      let key ← read fuel .flow
      return (key, missing) :: (← readFlowPairs fuel false)

end

def readDirectives (fuel : Nat) (versioned : Bool) : Reader Unit :=
  match fuel with
  | 0 => throw .malformed
  | fuel + 1 => do
    match ← peek with
    | .directive (.version major) =>
        advance
        if versioned ∨ major ≠ 1 then throw .malformed
        readDirectives fuel true
    | .directive (.handle name target) =>
        advance
        let source ← get
        if (source.handles.lookup name).isSome then throw .malformed
        set { source with handles := (name, target) :: source.handles }
        readDirectives fuel versioned
    | .directive .other =>
        advance
        readDirectives fuel versioned
    | _ => return ()

def skipEnds (fuel : Nat) : Reader Unit :=
  match fuel with
  | 0 => return ()
  | fuel + 1 => do
    if ← accept .documentEnd then skipEnds fuel

/-- Reads the only document. Without a mark that starts it, it has no directives. -/
def readDocument (fuel : Nat) : Reader (Option Node) := do
  let node ←
    (match ← peek with
    | .streamEnd => return none
    | .directive _ | .documentStart => do
        readDirectives fuel false
        modify fun source => { source with handles := source.handles ++ commonHandles }
        expect .documentStart
        match ← peek with
        | .directive _ | .documentStart | .documentEnd | .streamEnd => return some missing
        | _ => return some (← read fuel .block)
    | _ => do
        modify fun source => { source with handles := commonHandles }
        return some (← read fuel .block) : Reader (Option Node))
  skipEnds fuel
  expect .streamEnd
  return node

def ofStream (stream : TokenStream) : Except Fault (Option Node) :=
  let source : Source := ⟨stream.tokens, stream.fault.getD .malformed, [], [], false⟩
  (readDocument (2 * stream.tokens.length + 2)).run' source

end Node

end Permits.Yaml
