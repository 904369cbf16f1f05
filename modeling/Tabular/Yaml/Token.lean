import Tabular.Yaml.Scalar

/-!
Reading YAML tokens. Indentation becomes tokens that open and close blocks. A node that may turn
out to be a key is remembered until the colon behind it is met, which puts the token for a key in
front of it.
-/
namespace Tabular.Yaml

inductive Token where
  /-- The version of the language that a document asks for. -/
  | version (major minor : Nat)
  /-- A handle that stands for the start of tags. -/
  | handle (name start : List Char)
  | documentStart | documentEnd
  | blockSequenceStart | blockMappingStart | blockEnd
  | flowSequenceStart | flowSequenceEnd | flowMappingStart | flowMappingEnd
  | blockEntry | flowEntry | key | value
  | alias (name : List Char)
  | anchor (name : List Char)
  | tag (handle suffix : List Char)
  | scalar (style : ScalarStyle) (text : List Char)
  deriving DecidableEq, Repr

namespace Token

/-! ### Names, tags and directives -/

/-- Reads the name of an anchor, up to white space or a mark that may follow one. -/
def name? (s : List Spot) : Option (List Char × List Spot) :=
  let (name, rest) := spanChars isWord s
  let ends := endsWord rest ||
    rest.head?.any (·.char ∈ ['?', ':', ',', ']', '\x7d', '%', '@', '\x60'])
  if !name.isEmpty && ends then some (name, rest) else none

def isUriChar (verbatim : Bool) (c : Char) : Bool :=
  isWord c || c ∈ ";/?:@&=+$.!~*'()".toList || (verbatim && c ∈ [',', '[', ']'])

/-- One byte written as a percent sign and two digits. -/
def escapedByte? : List Spot → Option (UInt8 × List Spot)
  | p :: a :: b :: rest => do
    if p.char != '%' then none
    let n ← hexNumber? [a.char, b.char]
    return (UInt8.ofNat n, rest)
  | _ => none

def escapedBytes? : Nat → List Spot → Option (List UInt8 × List Spot)
  | 0, s => some ([], s)
  | n + 1, s => do
    let (b, s) ← escapedByte? s
    let (bs, s) ← escapedBytes? n s
    return (b :: bs, s)

/-- How many bytes a character has, by its first. -/
def width? (b : UInt8) : Option Nat :=
  if b < 0x80 then some 1
  else if b &&& 0xe0 == 0xc0 then some 2
  else if b &&& 0xf0 == 0xe0 then some 3
  else if b &&& 0xf8 == 0xf0 then some 4
  else none

/-- Reads a character written byte by byte. -/
def escapedChar? (s : List Spot) : Option (Char × List Spot) := do
  let (first, _) ← escapedByte? s
  let (bytes, rest) ← escapedBytes? (← width? first) s
  match (← String.fromUTF8? ⟨bytes.toArray⟩).toList with
  | [c] => return (c, rest)
  | _ => none

def uri? (verbatim : Bool) (s : List Spot) : Option (List Char × List Spot) :=
  match s.head? with
  | none => some ([], s)
  | some x =>
    if x.char == '%' then
      match escapedChar? s with
      | none => none
      | some (c, rest) =>
        if rest.length < s.length then do
          let (cs, rest) ← uri? verbatim rest
          return (c :: cs, rest)
        else none
    else if isUriChar verbatim x.char then
      let rest := s.tail
      if rest.length < s.length then do
        let (cs, rest) ← uri? verbatim rest
        return (x.char :: cs, rest)
      else none
    else some ([], s)
termination_by s.length

def nonempty? (r : List Char × List Spot) : Option (List Char × List Spot) :=
  if r.1.isEmpty then none else some r

/-- Reads an exclamation mark, a word, and another mark if there is one. -/
def tagHandle? : List Spot → Option (List Char × List Spot)
  | [] => none
  | x :: rest =>
    if x.char == '!' then
      let (word, rest) := spanChars isWord rest
      if startsWith '!' rest then some ('!' :: word ++ ['!'], rest.tail)
      else some ('!' :: word, rest)
    else none

def tagBody? (s : List Spot) : Option (Token × List Spot) :=
  if startsWith '<' s.tail then do
    let (suffix, rest) ← (uri? true s.tail.tail).bind nonempty?
    if startsWith '>' rest then return (.tag [] suffix, rest.tail) else none
  else do
    let (first, rest) ← tagHandle? s
    if 1 < first.length && first.getLast? == some '!' then
      let (suffix, rest) ← (uri? false rest).bind nonempty?
      return (.tag first suffix, rest)
    else
      let (more, rest) ← uri? false rest
      let suffix := first.tail ++ more
      return (if suffix.isEmpty then .tag [] ['!'] else .tag ['!'] suffix, rest)

def tag? (inFlow : Bool) (s : List Spot) : Option (Token × List Spot) := do
  let (t, rest) ← tagBody? s
  if endsWord rest || (inFlow && startsWith ',' rest) then return (t, rest) else none

/-- A number of nine digits at most. -/
def versionNumber? (s : List Spot) : Option (Nat × List Spot) := do
  let (digits, rest) ← nonempty? (spanChars Char.isDigit s)
  if 9 < digits.length then none
  return (digits.foldl (fun n c => 10 * n + (c.toNat - '0'.toNat)) 0, rest)

def directiveBody? (name : List Char) (s : List Spot) : Option (Token × List Spot) :=
  if name == "YAML".toList then do
    let (major, s) ← versionNumber? (skipSpacing s)
    if !startsWith '.' s then none
    let (minor, s) ← versionNumber? s.tail
    return (.version major minor, s)
  else if name == "TAG".toList then do
    let (name, s) ← tagHandle? (skipSpacing s)
    if name.getLast? != some '!' then none
    if !s.head?.any (·.isSpacing) then none
    let (start, s) ← (uri? true (skipSpacing s)).bind nonempty?
    if endsWord s then return (.handle name start, s) else none
  else none

/-- Reads a directive behind its percent sign, with the rest of its line. -/
def directive? (s : List Spot) : Option (Token × List Spot) := do
  let (name, rest) ← nonempty? (spanChars isWord s)
  if !endsWord rest then none
  let (t, rest) ← directiveBody? name rest
  return (t, ← endLine? rest)

end Token

/-! ### The scanner -/

/-- A node that may be a key: the position of its first token, and where it stands. -/
structure Candidate where
  position : Nat
  line : Nat
  column : Nat
  /-- It stands where only a key can stand. -/
  isRequired : Bool
  deriving DecidableEq, Repr

/-- Longest key that needs no mark in front of it. -/
def keyLimit : Nat := 1024

structure Scanner where
  /-- The tokens so far, with those put in front of each. -/
  tokens : Array (List Token) := #[]
  /-- Columns of the open blocks, the innermost first; none outside of any block. -/
  indents : List Nat := []
  /-- The possible key in the block, and in each open pair of brackets, the innermost first. -/
  candidates : List (Option Candidate) := [none]
  /-- May a key stand here? -/
  keyAllowed : Bool := true
  deriving Repr

namespace Scanner

def inFlow (x : Scanner) : Bool := 1 < x.candidates.length

/-- The column of the innermost block, -1 outside. -/
def indent (x : Scanner) : Int :=
  match x.indents with
  | [] => -1
  | n :: _ => n

def emit (x : Scanner) (t : Token) : Scanner := { x with tokens := x.tokens.push [t] }

def allowKey (x : Scanner) (allowed : Bool) : Scanner := { x with keyAllowed := allowed }

/-- Puts tokens in front of the one at a position. -/
def emitBefore (x : Scanner) (position : Nat) (ts : List Token) : Scanner :=
  { x with tokens := x.tokens.modify position (ts ++ ·) }

def candidate? (x : Scanner) : Option Candidate := x.candidates.head?.join

def setCandidate (x : Scanner) (c : Option Candidate) : Scanner :=
  { x with candidates := c :: x.candidates.tail }

/-- Gives up the possible key of the innermost level. -/
def dropCandidate? (x : Scanner) : Option Scanner :=
  if x.candidate?.any (·.isRequired) then none else some (x.setCandidate none)

/-- Gives up every possible key that has become too long. -/
def dropStale? (x : Scanner) (here : Spot) : Option Scanner := do
  let candidates ← x.candidates.mapM fun c =>
    match c with
    | none => some none
    | some c =>
      if c.line < here.line || c.column + keyLimit < here.column then
        if c.isRequired then none else some none
      else some (some c)
  return { x with candidates }

/-- Remembers that a key may start here. -/
def saveCandidate? (x : Scanner) (here : Spot) : Option Scanner :=
  if x.keyAllowed then do
    let x ← x.dropCandidate?
    return x.setCandidate (some
      { position := x.tokens.size, line := here.line, column := here.column
        isRequired := !x.inFlow && x.indent == here.column })
  else some x

/-- Closes the blocks right of a column. -/
def closeBlocks (x : Scanner) (column : Int) : Scanner :=
  if x.inFlow then x
  else
    let closed := x.indents.takeWhile fun (n : Nat) => decide (column < n)
    { x with indents := x.indents.drop closed.length
             tokens := x.tokens ++ (closed.map fun _ => [Token.blockEnd]).toArray }

/-- Does a block start at this column? -/
def opensBlock (x : Scanner) (column : Nat) : Bool := !x.inFlow && x.indent < column

/-- Opens a block at a column unless it is open. -/
def openBlock (x : Scanner) (column : Nat) (t : Token) : Scanner :=
  if x.opensBlock column then { x with indents := column :: x.indents }.emit t else x

/-- Skips white space, comments and breaks between tokens. A tab may not stand where a key may. -/
def skipBlank (x : Scanner) (inComment : Bool) : List Spot → Scanner × List Spot
  | [] => (x, [])
  | s :: rest =>
    if s.isBreak then skipBlank (if x.inFlow then x else x.allowKey true) false rest
    else if inComment then skipBlank x true rest
    else if s.char == '#' then skipBlank x true rest
    else if s.char == ' ' || (s.char == '\t' && (x.inFlow || !x.keyAllowed)) then
      skipBlank x false rest
    else (x, s :: rest)

/-- Ends the blocks in front of a document mark or a directive. -/
def atMargin? (x : Scanner) : Option Scanner := do
  return (← (x.closeBlocks (-1)).dropCandidate?).allowKey false

def openFlow? (x : Scanner) (here : Spot) (t : Token) : Option Scanner := do
  let x ← x.saveCandidate? here
  return ({ x with candidates := none :: x.candidates }.allowKey true).emit t

def closeFlow? (x : Scanner) (t : Token) : Option Scanner := do
  let x ← x.dropCandidate?
  let x := if x.inFlow then { x with candidates := x.candidates.tail } else x
  return (x.allowKey false).emit t

def blockEntry? (x : Scanner) (here : Spot) : Option Scanner := do
  if !x.inFlow && !x.keyAllowed then none
  let x ← (x.openBlock here.column .blockSequenceStart).dropCandidate?
  return (x.allowKey true).emit .blockEntry

def key? (x : Scanner) (here : Spot) : Option Scanner := do
  if !x.inFlow && !x.keyAllowed then none
  let x ← (x.openBlock here.column .blockMappingStart).dropCandidate?
  return (x.allowKey (!x.inFlow)).emit .key

/-- At a colon, the node that may be a key is one. -/
def value? (x : Scanner) (here : Spot) : Option Scanner :=
  match x.candidate? with
  | some c =>
    let opens := x.opensBlock c.column
    let front := (if opens then [Token.blockMappingStart] else []) ++ [.key]
    let x := x.emitBefore c.position front
    let x := if opens then { x with indents := c.column :: x.indents } else x
    some (((x.setCandidate none).allowKey false).emit .value)
  | none =>
    if !x.inFlow && !x.keyAllowed then none
    else some (((x.openBlock here.column .blockMappingStart).allowKey (!x.inFlow)).emit .value)

/-- May a plain scalar start with the first character, before the rest? -/
def startsPlain (inFlow : Bool) (s : Spot) (rest : List Spot) : Bool :=
  let isMark := s.isBlank ||
    s.char ∈ "-?:,[]\x7b\x7d#&*!|>'\"%@\x60".toList
  !isMark || (s.char == '-' && !rest.head?.any (·.isSpacing)) ||
    (!inFlow && (s.char == '?' || s.char == ':') && !endsWord rest)

def plain? (x : Scanner) (here : Spot) (s : List Spot) : Option (Scanner × List Spot) := do
  let x ← x.saveCandidate? here
  let scan ← plainFrom? (x.indent + 1) x.inFlow {} s
  return ((x.allowKey scan.broken).emit (.scalar .plain scan.text), scan.rest)

def quoted? (x : Scanner) (here : Spot) (style : ScalarStyle) (rest : List Spot) :
    Option (Scanner × List Spot) := do
  let x ← x.saveCandidate? here
  let (text, rest) ← Yaml.quoted? here.char rest
  return ((x.allowKey false).emit (.scalar style text), rest)

def block? (x : Scanner) (style : ScalarStyle) (rest : List Spot) :
    Option (Scanner × List Spot) := do
  let x ← x.dropCandidate?
  let (text, rest) ← Yaml.block? (style == .folded) x.indent rest
  return ((x.allowKey true).emit (.scalar style text), rest)

def named? (x : Scanner) (here : Spot) (token : List Char → Token) (rest : List Spot) :
    Option (Scanner × List Spot) := do
  let x ← x.saveCandidate? here
  let (name, rest) ← Token.name? rest
  return ((x.allowKey false).emit (token name), rest)

/-- Reads the token that starts here. -/
def next? (x : Scanner) (s : List Spot) : Option (Scanner × List Spot) :=
  match s with
  | [] => none
  | here :: rest =>
    if here.column == 0 && here.char == '%' then do
      let (t, rest) ← Token.directive? rest
      return ((← x.atMargin?).emit t, rest)
    else if isDocumentMark s then do
      let t := if here.char == '-' then Token.documentStart else .documentEnd
      return ((← x.atMargin?).emit t, s.drop 3)
    else
      match here.char with
      | '[' => do return (← x.openFlow? here .flowSequenceStart, rest)
      | '\x7b' => do return (← x.openFlow? here .flowMappingStart, rest)
      | ']' => do return (← x.closeFlow? .flowSequenceEnd, rest)
      | '\x7d' => do return (← x.closeFlow? .flowMappingEnd, rest)
      | ',' => do return (((← x.dropCandidate?).allowKey true).emit .flowEntry, rest)
      | '*' => x.named? here .alias rest
      | '&' => x.named? here .anchor rest
      | '!' => do
        let x ← x.saveCandidate? here
        let (t, rest) ← Token.tag? x.inFlow s
        return ((x.allowKey false).emit t, rest)
      | '\'' => x.quoted? here .singleQuoted rest
      | '"' => x.quoted? here .doubleQuoted rest
      | c =>
        if c == '-' && endsWord rest then do return (← x.blockEntry? here, rest)
        else if c == '?' && (x.inFlow || endsWord rest) then do return (← x.key? here, rest)
        else if c == ':' && (x.inFlow || endsWord rest) then do return (← x.value? here, rest)
        else if c == '|' && !x.inFlow then x.block? .literal rest
        else if c == '>' && !x.inFlow then x.block? .folded rest
        else if startsPlain x.inFlow here rest then x.plain? here s
        else none

/-- Reads tokens to the end. -/
def finish? (x : Scanner) (s : List Spot) : Option (List Token) :=
  let (x, t) := x.skipBlank false s
  match t with
  | [] => do
    let x ← x.atMargin?
    return x.tokens.toList.flatten
  | here :: _ =>
    match (x.dropStale? here).bind fun x => (x.closeBlocks here.column).next? t with
    | none => none
    | some (x, rest) => if rest.length < s.length then x.finish? rest else none
termination_by s.length

end Scanner

/-- The tokens of a text. -/
def Token.ofText? (text : String) : Option (List Token) := do
  Scanner.finish? {} (← Spot.ofText? text)

end Tabular.Yaml
