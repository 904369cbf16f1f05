import Tabular.Json.Basic

/-!
Printing JSON values: in one line without blanks, or with one member a line, indented by two
spaces a level. Members stand in the order of the value.
-/
namespace Tabular

namespace Json

def hexDigit (n : Nat) : Char := Nat.digitChar n

/-- Escapes the quote, the backslash and the control characters. -/
def escapeChar (c : Char) : List Char :=
  if c == '"' then ['\\', '"']
  else if c == '\\' then ['\\', '\\']
  else if c == '\n' then ['\\', 'n']
  else if c == '\r' then ['\\', 'r']
  else if c == '\t' then ['\\', 't']
  else if c == '\x08' then ['\\', 'b']
  else if c == '\x0c' then ['\\', 'f']
  else if c.toNat < 0x20 then
    ['\\', 'u', '0', '0', hexDigit (c.toNat / 16), hexDigit (c.toNat % 16)]
  else [c]

def quote (s : String) : String := String.ofList ('"' :: s.toList.flatMap escapeChar ++ ['"'])

mutual

def compact : Json → String
  | null => "null"
  | bool b => if b then "true" else "false"
  | number n => n.toText
  | string s => quote s
  | array items => "[" ++ compactItems "" items ++ "]"
  | object members => "\x7b" ++ compactMembers "" members ++ "\x7d"

def compactItems (separator : String) : List Json → String
  | [] => ""
  | v :: vs => separator ++ v.compact ++ compactItems "," vs

def compactMembers (separator : String) : List (String × Json) → String
  | [] => ""
  | (k, v) :: ms => separator ++ quote k ++ ":" ++ v.compact ++ compactMembers "," ms

end

def newLine (level : Nat) : String := String.ofList ('\n' :: List.replicate (2 * level) ' ')

mutual

/-- The text of a value at a level of indentation. -/
def prettyAt (level : Nat) : Json → String
  | null => "null"
  | bool b => if b then "true" else "false"
  | number n => n.toText
  | string s => quote s
  | array [] => "[]"
  | array (v :: vs) =>
    "[" ++ newLine (level + 1) ++ prettyAt (level + 1) v ++ prettyItems (level + 1) vs ++
      newLine level ++ "]"
  | object [] => "\x7b\x7d"
  | object ((k, v) :: ms) =>
    "\x7b" ++ newLine (level + 1) ++ quote k ++ ": " ++ prettyAt (level + 1) v ++
      prettyMembers (level + 1) ms ++ newLine level ++ "\x7d"

def prettyItems (level : Nat) : List Json → String
  | [] => ""
  | v :: vs => "," ++ newLine level ++ prettyAt level v ++ prettyItems level vs

def prettyMembers (level : Nat) : List (String × Json) → String
  | [] => ""
  | (k, v) :: ms =>
    "," ++ newLine level ++ quote k ++ ": " ++ prettyAt level v ++ prettyMembers level ms

end

def pretty (v : Json) : String := prettyAt 0 v

end Json

end Tabular
