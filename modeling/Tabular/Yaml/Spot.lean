/-!
YAML texts character by character, each with its line and column. Line breaks of one or two
characters count as one.
-/
namespace Tabular.Yaml

/-- A character with the line and column it stands at, from zero. -/
structure Spot where
  char : Char
  line : Nat
  column : Nat
  deriving DecidableEq, Repr

/-- Line and paragraph separators are breaks that stay what they are. -/
def isSeparator (c : Char) : Bool := c == '\u2028' || c == '\u2029'

def isBreak (c : Char) : Bool := c == '\n' || c == '\r' || c == '\u0085' || isSeparator c

def isSpacing (c : Char) : Bool := c == ' ' || c == '\t'

/-- The characters that a text may hold. -/
def isAllowed (c : Char) : Bool :=
  let n := c.toNat
  c == '\t' || c == '\n' || c == '\r' || (0x20 ≤ n && n ≤ 0x7e) || n == 0x85 ||
  (0xa0 ≤ n && n ≤ 0xd7ff) || (0xe000 ≤ n && n ≤ 0xfffd) || 0x10000 ≤ n

/-- The characters of names. -/
def isWord (c : Char) : Bool := c.isAlphanum || c == '_' || c == '-'

namespace Spot

/-- Every break but a separator becomes a line feed. -/
def ofChars (line column : Nat) : List Char → List Spot
  | [] => []
  | '\r' :: '\n' :: cs => ⟨'\n', line, column⟩ :: ofChars (line + 1) 0 cs
  | c :: cs =>
    if isBreak c then
      ⟨if isSeparator c then c else '\n', line, column⟩ :: ofChars (line + 1) 0 cs
    else ⟨c, line, column⟩ :: ofChars line (column + 1) cs

/-- The spots of a text, without the mark that tells the order of bytes. -/
def ofText? (text : String) : Option (List Spot) :=
  let cs := match text.toList with
    | '\ufeff' :: cs => cs
    | cs => cs
  if cs.all isAllowed then some (ofChars 0 0 cs) else none

def isBreak (s : Spot) : Bool := Yaml.isBreak s.char

def isSpacing (s : Spot) : Bool := Yaml.isSpacing s.char

/-- A space, a tab or a break. -/
def isBlank (s : Spot) : Bool := s.isSpacing || s.isBreak

end Spot

/-- Does a word end here? -/
def endsWord : List Spot → Bool
  | [] => true
  | s :: _ => s.isBlank

/-- Does a text stand here that satisfies the test? -/
def startsWith (c : Char) : List Spot → Bool
  | [] => false
  | s :: _ => s.char == c

/-- Three hyphens or three dots at the start of a line end what came before. -/
def isDocumentMark : List Spot → Bool
  | a :: b :: c :: rest =>
    a.column == 0 && (a.char == '-' || a.char == '.') && b.char == a.char && c.char == a.char &&
      endsWord rest
  | _ => false

/-- Takes characters while a test holds. -/
def spanChars (p : Char → Bool) : List Spot → List Char × List Spot
  | [] => ([], [])
  | s :: rest =>
    if p s.char then
      let (cs, rest) := spanChars p rest
      (s.char :: cs, rest)
    else ([], s :: rest)

def skipSpacing (s : List Spot) : List Spot := s.dropWhile Spot.isSpacing

/-- The rest from the end of the line on. -/
def skipLine (s : List Spot) : List Spot := s.dropWhile (!·.isBreak)

/-- The rest behind the end of a line, on which only a comment may stand. -/
def endLine? (s : List Spot) : Option (List Spot) :=
  let s := skipSpacing s
  let s := if startsWith '#' s then skipLine s else s
  match s with
  | [] => some []
  | x :: rest => if x.isBreak then some rest else none

def hexValue? (c : Char) : Option Nat :=
  if c.isDigit then some (c.toNat - '0'.toNat)
  else if 'a' ≤ c && c ≤ 'f' then some (c.toNat - 'a'.toNat + 10)
  else if 'A' ≤ c && c ≤ 'F' then some (c.toNat - 'A'.toNat + 10)
  else none

/-- The value of hexadecimal digits. -/
def hexNumber? (cs : List Char) : Option Nat :=
  cs.foldlM (fun n c => do return 16 * n + (← hexValue? c)) 0

/-- The character of a number, unless it is half of a surrogate pair or too great. -/
def character? (n : Nat) : Option Char :=
  if n.isValidChar then some (Char.ofNat n) else none

end Tabular.Yaml
