import Tabular.Markup.Element

/-!
Reading XML documents without a document type declaration. A scanner takes a list of characters and
returns what it read with the rest; none means that the document is not well formed.
-/
namespace Tabular.Markup

def isSpace (c : Char) : Bool := c == ' ' || c == '\t' || c == '\n' || c == '\r'

/-- The characters that may stand in a document. -/
def isDocumentChar (c : Char) : Bool :=
  let n := c.toNat
  if n < 0x20 then isSpace c else n != 0xfffe && n != 0xffff

def within (n first last : Nat) : Bool := first ≤ n && n ≤ last

def isNameStart (c : Char) : Bool :=
  let n := c.toNat
  if n ≤ 0x80 then c.isAlpha || c == ':' || c == '_'
  else within n 0xc0 0xd6 || within n 0xd8 0xf6 || within n 0xf8 0x2ff || within n 0x370 0x37d ||
    within n 0x37f 0x1fff || within n 0x200c 0x200d || within n 0x2070 0x218f ||
    within n 0x2c00 0x2fef || within n 0x3001 0xd7ff || within n 0xf900 0xfdcf ||
    within n 0xfdf0 0xfffd || within n 0x10000 0xeffff

def isNameChar (c : Char) : Bool :=
  let n := c.toNat
  if n ≤ 0x80 then c.isAlphanum || c == ':' || c == '_' || c == '-' || c == '.'
  else isNameStart c || n == 0xb7 || within n 0x300 0x36f || within n 0x203f 0x2040

def skipSpace (cs : List Char) : List Char := cs.dropWhile isSpace

/-- The rest after a fixed text. -/
def after (word cs : List Char) : Option (List Char) :=
  if word.isPrefixOf cs then some (cs.drop word.length) else none

/-- Text up to `stop`, of document characters only, and the rest after `stop`. -/
def scanUntil (stop : List Char) : List Char → Option (List Char × List Char)
  | [] => none
  | c :: cs =>
    if stop.isPrefixOf (c :: cs) then some ([], (c :: cs).drop stop.length)
    else if isDocumentChar c then (scanUntil stop cs).map fun (t, rest) => (c :: t, rest)
    else none

def scanName : List Char → Option (List Char × List Char)
  | [] => none
  | c :: cs =>
    if isNameStart c then some (c :: cs.takeWhile isNameChar, cs.dropWhile isNameChar) else none

/-- A name with a prefix; no prefix is the empty one. -/
structure PrefixedName where
  key : List Char
  name : List Char
  deriving DecidableEq

/-- At most one colon, and a letter or underscore after it and in front. -/
def scanPrefixedName (cs : List Char) : Option (PrefixedName × List Char) :=
  let word := cs.takeWhile isNameChar
  let rest := cs.dropWhile isNameChar
  let key := word.takeWhile (· != ':')
  let startsWell (w : List Char) : Bool := w.head?.any fun c => isNameStart c && c != ':'
  match word.dropWhile (· != ':') with
  | [] => if startsWell word then some (⟨[], word⟩, rest) else none
  | _ :: name =>
    if name.contains ':' then none
    else if (key.isEmpty || startsWell key) && startsWell name then some (⟨key, name⟩, rest)
    else none

def hexValue? (c : Char) : Option Nat :=
  if '0' ≤ c && c ≤ '9' then some (c.toNat - '0'.toNat)
  else if 'a' ≤ c && c ≤ 'f' then some (c.toNat - 'a'.toNat + 10)
  else if 'A' ≤ c && c ≤ 'F' then some (c.toNat - 'A'.toNat + 10)
  else none

/-- The number written by the leading digits of a base, if there is one below `2 ^ 32`. -/
def scanNumber (base : Nat) (cs : List Char) : Option (Nat × List Char) :=
  let isDigit (c : Char) : Bool := (hexValue? c).any (· < base)
  let digits := cs.takeWhile isDigit
  let n := digits.foldl (fun n c => base * n + (hexValue? c).getD 0) 0
  if digits.isEmpty || 0x100000000 ≤ n then none else some (n, cs.dropWhile isDigit)

/-- A code point that is none stands for the replacement character. -/
def charOf (n : Nat) : Char := if n.isValidChar then Char.ofNat n else '\ufffd'

def namedChar? (name : List Char) : Option Char :=
  match String.ofList name with
  | "quot" => some '"'
  | "amp" => some '&'
  | "apos" => some '\''
  | "lt" => some '<'
  | "gt" => some '>'
  | _ => none

/-- The character of a reference, behind its ampersand. -/
def scanReference (cs : List Char) : Option (Char × List Char) := do
  let (c, rest) ← match cs with
    | '#' :: 'x' :: cs => do
      let (n, rest) ← scanNumber 16 cs
      pure (charOf n, rest)
    | '#' :: cs => do
      let (n, rest) ← scanNumber 10 cs
      pure (charOf n, rest)
    | cs => do
      let (name, rest) ← scanName cs
      pure (← namedChar? name, rest)
  if isDocumentChar c then return (c, ← after [';'] rest) else none

/-- An attribute's value: references are replaced, and each white space is a blank. -/
def normalizeValue : Nat → List Char → Option (List Char)
  | 0, _ => none
  | _, [] => some []
  | fuel + 1, '&' :: cs => do
    let (c, rest) ← scanReference cs
    return c :: (← normalizeValue fuel rest)
  | fuel + 1, '\r' :: '\n' :: cs => normalizeValue fuel ('\n' :: cs)
  | fuel + 1, c :: cs => (normalizeValue fuel cs).map ((if isSpace c then ' ' else c) :: ·)

/-- Is every reference of a text sound? -/
def hasSoundReferences : Nat → List Char → Bool
  | 0, _ => false
  | _, [] => true
  | fuel + 1, '&' :: cs =>
    match scanReference cs with
    | some (_, rest) => hasSoundReferences fuel rest
    | none => false
  | fuel + 1, _ :: cs => hasSoundReferences fuel cs

/-- An attribute as written. -/
structure RawAttribute where
  name : PrefixedName
  value : List Char

def scanAttribute (cs : List Char) : Option (RawAttribute × List Char) := do
  let (name, cs) ← scanPrefixedName cs
  let cs := skipSpace (← after ['='] (skipSpace cs))
  match cs with
  | q :: cs =>
    if q != '"' && q != '\'' then none
    else
      let (value, rest) ← scanUntil [q] cs
      if value.contains '<' then none else return (⟨name, value⟩, rest)
  | [] => none

def scanComment (cs : List Char) : Option (List Char) := do
  let (text, rest) ← scanUntil ['-', '-', '>'] (← after ['<', '!', '-', '-'] cs)
  let isDouble := (text.zip (text.drop 1)).any fun p => p.1 == '-' && p.2 == '-'
  if isDouble || text.getLast? == some '-' then none else some rest

/-- A processing instruction, which is not the document's declaration. -/
def scanInstruction (cs : List Char) : Option (List Char) := do
  let rest ← after ['<', '?'] cs
  if ['x', 'm', 'l', ' '].isPrefixOf rest then none
  let (_, rest) ← scanName rest
  let (_, rest) ← scanUntil ['?', '>'] (skipSpace rest)
  return rest

/-- Comments, instructions and white space. -/
def skipMisc : Nat → List Char → Option (List Char)
  | 0, _ => none
  | fuel + 1, cs =>
    let cs := skipSpace cs
    if ['<', '!', '-', '-'].isPrefixOf cs then do skipMisc fuel (← scanComment cs)
    else if ['<', '?'].isPrefixOf cs then do skipMisc fuel (← scanInstruction cs)
    else some cs

/-- White space that has to be there unless the declaration ends. -/
def declarationSpace (cs : List Char) : Option (List Char) :=
  if cs.head?.any isSpace then some (skipSpace cs)
  else if ['?', '>'].isPrefixOf cs || cs.isEmpty then some cs
  else none

def isWord (word : String) (cs : List Char) : Bool := word.toList.isPrefixOf cs

/-- The document's declaration: a version, then perhaps an encoding, then perhaps `standalone`. -/
def scanDeclaration (cs : List Char) : Option (List Char) := do
  let cs ← declarationSpace cs
  if !isWord "version" cs then none
  let (_, cs) ← scanAttribute cs
  let cs ← declarationSpace cs
  let cs ← if isWord "encoding" cs then do
      let (_, cs) ← scanAttribute cs
      declarationSpace cs
    else some cs
  let cs ← if isWord "standalone" cs then do
      let (_, cs) ← scanAttribute cs
      some cs
    else some cs
  after ['?', '>'] (skipSpace cs)

def xmlUri : String := "http://www.w3.org/XML/1998/namespace"

def xmlnsUri : String := "http://www.w3.org/2000/xmlns/"

/-- What the attributes of a start tag come to. -/
structure TagContents where
  /-- Namespaces declared here, in order. -/
  declared : Scope := []
  plain : List (PrefixedName × String) := []

/-- Takes up one attribute: a namespace declaration, or a plain attribute. -/
def TagContents.add (t : TagContents) (a : RawAttribute) : Option TagContents := do
  let value := String.ofList (← normalizeValue (a.value.length + 1) a.value)
  let name := String.ofList a.name.name
  if a.name.key == "xmlns".toList then
    if value == xmlnsUri || (value == xmlUri) != (name == "xml") then none
    else if t.declared.any (·.1 == some name) then none
    else if value == xmlUri then some t
    else some { t with declared := t.declared ++ [(some name, value)] }
  else if name == "xmlns" then
    if value == xmlUri || value == xmlnsUri then none
    else some { t with declared := t.declared ++ [(none, value)] }
  else some { t with plain := t.plain ++ [(a.name, value)] }

/-- Declarations of an element in front of those around it that it does not replace. -/
def extendScope (declared outer : Scope) : Scope :=
  declared ++ outer.filter fun b => !declared.any (·.1 == b.1)

def lookUp (scope : Scope) (key : Option String) : Option String :=
  (scope.find? (·.1 == key)).map (·.2)

/-- Expands an attribute's name; a prefix that is not declared is a fault. -/
def expandAttribute (scope : Scope) (a : PrefixedName × String) : Option Attribute :=
  let name := String.ofList a.1.name
  if a.1.key.isEmpty then some ⟨none, name, a.2⟩
  else if a.1.key == "xml".toList then some ⟨some xmlUri, name, a.2⟩
  else (lookUp scope (some (String.ofList a.1.key))).map fun uri => ⟨some uri, name, a.2⟩

/-- Expands all attributes, no two of one name. -/
def expandAttributes (scope : Scope) : List (PrefixedName × String) → Option (List Attribute)
  | [] => some []
  | a :: as => do
    let x ← expandAttribute scope a
    let xs ← expandAttributes scope as
    if xs.any fun y => y.uri == x.uri && y.name == x.name then none else return x :: xs

/-- Expands an element's name; without a prefix the default namespace counts, if there is one. -/
def expandElement (scope : Scope) (name : PrefixedName) : Option (Option String) :=
  if name.key.isEmpty then some (lookUp scope none)
  else (lookUp scope (some (String.ofList name.key))).map some

/-- Attributes up to the end of a start tag; true for a tag that closes itself. -/
def scanAttributes : Nat → TagContents → List Char → Option (TagContents × Bool × List Char)
  | 0, _, _ => none
  | fuel + 1, contents, cs =>
    match skipSpace cs with
    | '/' :: '>' :: rest => some (contents, true, rest)
    | '>' :: rest => some (contents, false, rest)
    | rest => do
      if !cs.head?.any isSpace then none
      let (a, rest) ← scanAttribute rest
      scanAttributes fuel (← contents.add a) rest

/-- Text up to the next tag or to the end. -/
def scanText (cs : List Char) : Option (List Char) :=
  let text := cs.takeWhile (· != '<')
  let endsSection := (text.zip ((text.drop 1).zip (text.drop 2))).any fun p =>
    p.1 == ']' && p.2.1 == ']' && p.2.2 == '>'
  if text.all isDocumentChar && !endsSection && hasSoundReferences (text.length + 1) text then
    some (cs.drop text.length)
  else none

mutual

/-- An element, behind the bracket that opens it. -/
def scanElement : Nat → Scope → List Char → Option (Element × List Char)
  | 0, _, _ => none
  | fuel + 1, outer, cs => do
    let (name, cs) ← scanPrefixedName cs
    if name.key == "xmlns".toList then none
    let (contents, closed, cs) ← scanAttributes (cs.length + 1) {} cs
    let scope := extendScope contents.declared outer
    let attributes ← expandAttributes scope contents.plain
    let uri ← expandElement scope name
    if closed then return (⟨uri, String.ofList name.name, attributes, scope, []⟩, cs)
    else
      let (children, close, cs) ← scanContent fuel scope cs
      if close == name then
        return (⟨uri, String.ofList name.name, attributes, scope, children⟩, cs)
      else none

/-- Everything up to an end tag, whose name is returned with the elements before it. -/
def scanContent : Nat → Scope → List Char → Option (List Element × PrefixedName × List Char)
  | 0, _, _ => none
  | fuel + 1, scope, cs =>
    match cs with
    | [] => none
    | '<' :: '!' :: rest =>
      if ['-', '-'].isPrefixOf rest then do scanContent fuel scope (← scanComment cs)
      else do
        let body ← after "[CDATA[".toList rest
        let (_, rest) ← scanUntil [']', ']', '>'] body
        scanContent fuel scope rest
    | '<' :: '?' :: _ => do scanContent fuel scope (← scanInstruction cs)
    | '<' :: '/' :: rest => do
      let (name, rest) ← scanPrefixedName rest
      return ([], name, ← after ['>'] (skipSpace rest))
    | '<' :: rest => do
      let (child, rest) ← scanElement fuel scope rest
      let (children, name, rest) ← scanContent fuel scope rest
      return (child :: children, name, rest)
    | cs => do scanContent fuel scope (← scanText cs)

end

def dropMark (cs : List Char) : List Char :=
  match cs with
  | '\ufeff' :: cs => cs
  | cs => cs

/-- The root element of a document. -/
def parse (s : String) : Option Element := do
  let fuel := s.length + 1
  let cs := dropMark s.toList
  let cs ← if isWord "<?xml " cs then scanDeclaration (cs.drop 5) else some cs
  let cs ← skipMisc fuel cs
  match cs with
  | '<' :: rest =>
    let (root, rest) ← scanElement fuel [] rest
    let rest ← skipMisc fuel rest
    if rest.isEmpty then some root else none
  | _ => none

end Tabular.Markup
