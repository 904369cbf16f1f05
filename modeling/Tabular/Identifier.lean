import Tabular.Engine
import Tabular.Text.Quoted

/-!
Names made safe for an engine. SQL Server takes any name in brackets, a closing bracket inside
written twice; a catalog takes bare lower-case names.
-/
namespace Tabular

/-- A safe name: the form that is spliced into statements, and the name itself. -/
structure Identifier where
  quoted : String
  bare : String
  deriving DecidableEq, Repr, Inhabited

namespace Identifier

/-- Greatest length of a SQL Server name, in characters. -/
def serverLimit : Nat := 128

/-- Greatest length of a name in a catalog, in characters. -/
def catalogLimit : Nat := 64

/-- Refuses names of blanks only and names with a NUL character. -/
def validate (name : String) : Except Fault Unit :=
  if isBlankText name then .error (.argument (Tabular.quoted name) "Identifier cannot be empty")
  else if name.toList.contains '\x00' then
    .error (.argument (Tabular.quoted name) "Identifier contains a null byte")
  else .ok ()

/-- The first `limit` characters, without blanks at the end. -/
def truncate (limit : Nat) (cs : List Char) : List Char := Text.trimEnd (cs.take limit)

/-- Writes every closing bracket twice. -/
def doubleBrackets : List Char → List Char
  | [] => []
  | c :: cs => if c = ']' then ']' :: ']' :: doubleBrackets cs else c :: doubleBrackets cs

def bracket (cs : List Char) : List Char := '[' :: doubleBrackets cs ++ [']']

/-- Reads doubled closing brackets up to a closing bracket that ends the text. -/
def readBracketed : List Char → Option (List Char)
  | [] => none
  | ']' :: [] => some []
  | ']' :: ']' :: cs => (readBracketed cs).map (']' :: ·)
  | c :: cs => if c = ']' then none else (readBracketed cs).map (c :: ·)

/-- The name inside a well-formed pair of brackets. -/
def unbracket : List Char → Option (List Char)
  | '[' :: cs => readBracketed cs
  | _ => none

/-- A name for SQL Server: brackets around it are taken off first, so that a quoted name stays the
name it is. -/
def forServer (name : String) : Except Fault Identifier := do
  let outer := Text.trim name.toList
  let raw := (unbracket outer).getD outer
  validate (String.ofList raw)
  let bare := truncate serverLimit (Text.trim raw)
  return ⟨String.ofList (bracket bare), String.ofList bare⟩

/-- Spaces and hyphens become underscores. -/
def underscore (c : Char) : Char := if c == ' ' || c == '-' then '_' else c

/-- A bare lower-case name of at most `limit` characters. -/
def bareOf (limit : Nat) (name : String) : Except Fault Identifier := do
  validate name
  let bare := truncate limit ((Text.lower (Text.trim name.toList)).map underscore)
  return ⟨String.ofList bare, String.ofList bare⟩

def forCatalog (name : String) : Except Fault Identifier := bareOf catalogLimit name

/-- A name for an engine. -/
def sanitize (engine : Engine) (name : String) : Except Fault Identifier :=
  match engine with
  | .jet => forCatalog name
  | .sql | .oledb => forServer name

/-- Writes every single quote twice. -/
def doubleQuotes : List Char → List Char
  | [] => []
  | c :: cs => if c = '\'' then '\'' :: '\'' :: doubleQuotes cs else c :: doubleQuotes cs

/-- A text for the inside of a literal in single quotes. -/
def escapeLiteral (s : String) : String := String.ofList (doubleQuotes s.toList)

end Identifier

end Tabular
