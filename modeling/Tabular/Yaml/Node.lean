import Tabular.Yaml.Token

/-!
YAML documents as trees. A name gets a number, and an alias stands for the last node of the number
that its name has when it is met. That may be a node around it, so a document keeps its named nodes
aside.
-/
namespace Tabular.Yaml

inductive Node where
  | scalar (tag : Option (List Char)) (style : ScalarStyle) (text : String)
  | sequence (items : List Node)
  | mapping (entries : List (Node × Node))
  /-- The named node of a number. -/
  | alias (target : Nat)
  deriving Repr, Inhabited

structure Document where
  root : Node
  /-- The named nodes by number; of two with one number the first counts. -/
  named : List (Nat × Node)
  deriving Repr

namespace Node

/-- A node that is not written. -/
def absent : Node := .scalar none .plain ""

/-- Tokens still to be read, and the names met so far. -/
structure Reading where
  tokens : List Token
  /-- What the handles of tags stand for. -/
  handles : List (List Char × List Char)
  /-- The number that each name has. -/
  names : List (List Char × Nat) := []
  /-- The numbers of the named nodes, the latest first. -/
  numbers : List Nat := []
  /-- The named nodes by the place at which they start among the named nodes. -/
  named : List (Nat × Node) := []

/-- The named nodes by number, the latest first. -/
def Reading.byNumber (r : Reading) : List (Nat × Node) :=
  r.numbers.reverse.zipIdx.reverse.filterMap fun (number, place) =>
    (r.named.find? (·.1 == place)).map fun p => (number, p.2)

/-- A reader of part of a document. -/
abbrev Reader := StateT Reading Option

namespace Reader

def peek : Reader (Option Token) := do return (← get).tokens.head?

def skip : Reader Unit := modify fun r => { r with tokens := r.tokens.tail }

def fail {α : Type} : Reader α := fun _ => none

/-- Is the next token among these? At the end there is none. -/
def isNext (ts : List Token) : Reader Bool := do return (← peek).any ts.contains

/-- Skips a token if it is the next. -/
def accept (t : Token) : Reader Bool := do
  if ← isNext [t] then
    skip
    return true
  else return false

def expect (t : Token) : Reader Unit := do if !(← accept t) then fail

/-- The tag that a handle and a suffix stand for. -/
def resolve (handle suffix : List Char) : Reader (List Char) := do
  if handle.isEmpty then return suffix
  match (← get).handles.find? (·.1 == handle) with
  | some (_, start) => return start ++ suffix
  | none => fail

/-- Reads the name of a node, if it has one. -/
def anchor : Reader (Option (List Char)) := do
  match ← peek with
  | some (.anchor name) => skip; return some name
  | _ => return none

/-- Reads a tag, if there is one. -/
def tag : Reader (Option (List Char)) := do
  match ← peek with
  | some (.tag handle suffix) => skip; return some (← resolve handle suffix)
  | _ => return none

/-- Reads a name and a tag in either order. -/
def properties : Reader (Option (List Char) × Option (List Char)) := do
  match ← anchor with
  | some name => return (some name, ← tag)
  | none =>
    match ← tag with
    | some t => return (← anchor, some t)
    | none => return (none, none)

/-- Gives a name the number of names that there are, and returns the place of its node. A name that
comes again gets a new number but counts once, so the next name may get that number too. -/
def reserve (name : List Char) : Reader Nat := do
  let r ← get
  let number := r.names.length
  set { r with
    names := (name, number) :: r.names.filter (·.1 != name)
    numbers := number :: r.numbers }
  return r.numbers.length

def keep (place : Nat) (node : Node) : Reader Unit :=
  modify fun r => { r with named := (place, node) :: r.named }

/-- The number of the node that an alias stands for. -/
def target (name : List Char) : Reader Nat := do
  match (← get).names.find? (·.1 == name) with
  | some (_, n) => return n
  | none => fail

end Reader

open Reader

/-- A scalar that is written. The tag `!` is none. -/
def ofScalar (tag : Option (List Char)) (style : ScalarStyle) (text : List Char) : Node :=
  .scalar (if tag == some ['!'] then none else tag) style (String.ofList text)

/-- A node that is not written although its name or its tag is. -/
def ofProperties (tag : Option (List Char)) : Node := .scalar tag .plain ""

mutual

/-- Reads a node. Blocks are read only where they may stand, and a list that is not indented only
behind a key. Every call with less fuel follows a token. -/
def read (fuel : Nat) (isBlock unindented : Bool) : Reader Node :=
  match fuel with
  | 0 => fail
  | fuel + 1 => do
    if let some (.alias name) ← peek then
      let n ← target name
      skip
      return .alias n
    let (anchor, tag) ← properties
    let place ← anchor.mapM reserve
    let node ← readContent fuel isBlock unindented anchor.isSome tag
    if let some n := place then keep n node
    return node

def readContent (fuel : Nat) (isBlock unindented hasAnchor : Bool) (tag : Option (List Char)) :
    Reader Node :=
  match fuel with
  | 0 => fail
  | fuel + 1 => do
    match ← peek with
    | some (.scalar style text) => skip; return ofScalar tag style text
    | some .flowSequenceStart => skip; return .sequence (← readFlowItems fuel true)
    | some .flowMappingStart => skip; return .mapping (← readFlowEntries fuel true)
    | some .blockEntry =>
      if unindented then return .sequence (← readItems fuel true)
      else if hasAnchor || tag.isSome then return ofProperties tag
      else fail
    | some .blockSequenceStart =>
      if isBlock then
        skip
        return .sequence (← readItems fuel false)
      else if hasAnchor || tag.isSome then return ofProperties tag
      else fail
    | some .blockMappingStart =>
      if isBlock then
        skip
        return .mapping (← readEntries fuel)
      else if hasAnchor || tag.isSome then return ofProperties tag
      else fail
    | _ => if hasAnchor || tag.isSome then return ofProperties tag else fail

/-- Reads a node unless one of these tokens, or the end, comes first. -/
def readUnless (fuel : Nat) (isBlock unindented : Bool) (ends : List Token) : Reader Node :=
  match fuel with
  | 0 => fail
  | fuel + 1 => do
    if ← isNext ends then return absent else read fuel isBlock unindented

/-- Reads the items of a list in a block, up to its end. -/
def readItems (fuel : Nat) (unindented : Bool) : Reader (List Node) :=
  match fuel with
  | 0 => fail
  | fuel + 1 => do
    if ← accept .blockEntry then
      let ends := [.blockEntry, .blockEnd] ++ (if unindented then [.key, .value] else [])
      let item ← readUnless fuel true false ends
      return item :: (← readItems fuel unindented)
    else
      if !unindented then expect .blockEnd
      return []

/-- Reads the entries of a mapping in a block, up to its end. -/
def readEntries (fuel : Nat) : Reader (List (Node × Node)) :=
  match fuel with
  | 0 => fail
  | fuel + 1 => do
    let ends : List Token := [.key, .value, .blockEnd]
    if ← accept .key then
      let k ← readUnless fuel true true ends
      let v ← if ← accept .value then readUnless fuel true true ends else pure absent
      return (k, v) :: (← readEntries fuel)
    else
      expect .blockEnd
      return []

/-- Reads the items of a list in brackets. An item may be a mapping of one entry. -/
def readFlowItems (fuel : Nat) (isFirst : Bool) : Reader (List Node) :=
  match fuel with
  | 0 => fail
  | fuel + 1 => do
    if ← accept .flowSequenceEnd then return []
    if !isFirst then
      expect .flowEntry
    if ← accept .flowSequenceEnd then return []
    if ← accept .key then
      let k ←
        if ← isNext [.value, .flowEntry, .flowSequenceEnd] then do
          skip
          pure absent
        else read fuel false false
      let v ← if ← accept .value then readUnless fuel false false [.flowEntry, .flowSequenceEnd]
        else pure absent
      return .mapping [(k, v)] :: (← readFlowItems fuel false)
    else
      let item ← read fuel false false
      return item :: (← readFlowItems fuel false)

/-- Reads the entries of a mapping in braces. -/
def readFlowEntries (fuel : Nat) (isFirst : Bool) : Reader (List (Node × Node)) :=
  match fuel with
  | 0 => fail
  | fuel + 1 => do
    if ← accept .flowMappingEnd then return []
    if !isFirst then
      expect .flowEntry
    if ← accept .flowMappingEnd then return []
    if ← accept .key then
      let k ← readUnless fuel false false [.value, .flowEntry, .flowMappingEnd]
      let v ← if ← accept .value then readUnless fuel false false [.flowEntry, .flowMappingEnd]
        else pure absent
      return (k, v) :: (← readFlowEntries fuel false)
    else
      let k ← read fuel false false
      return (k, absent) :: (← readFlowEntries fuel false)

end

end Node

namespace Document

open Node Reader

/-- What handles stand for without a directive. -/
def standardHandles : List (List Char × List Char) :=
  [(['!'], ['!']), (['!', '!'], "tag:yaml.org,2002:".toList)]

/-- Reads directives: at most one version, of the first major one, and each handle once. -/
def readDirectives (hasVersion : Bool) (handles : List (List Char × List Char)) :
    List Token → Option (List (List Char × List Char) × List Token)
  | .version major minor :: ts =>
    if !hasVersion && major == 1 && (minor == 1 || minor == 2) then readDirectives true handles ts
    else none
  | .handle name start :: ts =>
    if handles.any (·.1 == name) then none
    else readDirectives hasVersion (handles ++ [(name, start)]) ts
  | ts => some (handles, ts)

def isDirective : Token → Bool
  | .version .. | .handle .. => true
  | _ => false

/-- Reads the one document of a text. A document with directives has to be marked. -/
def ofTokens? (ts : List Token) : Option Document := do
  let (handles, rest) ← readDirectives false [] ts
  let rest ← match rest with
    | .documentStart :: rest => some rest
    | rest => if ts.head?.any isDirective || rest.isEmpty then none else some rest
  let isMarked := ts.head?.any fun t => t == .documentStart || isDirective t
  let isAbsent := isMarked && rest.head?.all fun t =>
    t == .documentStart || t == .documentEnd || isDirective t
  let reader := if isAbsent then pure absent else read (4 * ts.length + 4) true false
  let (root, r) ← reader { tokens := rest, handles := handles ++ standardHandles }
  if r.tokens.all (· == .documentEnd) then return { root, named := r.byNumber } else none

def ofText? (text : String) : Option Document := do ofTokens? (← Token.ofText? text)

end Document

end Tabular.Yaml
