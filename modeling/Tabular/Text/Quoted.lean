import Tabular.Text.Printable

/-!
Quoting a text so that every character of it can be seen: quotes around it, backslash escapes
inside, and code points in hexadecimal for what shows no mark of its own.
-/
namespace Tabular.Text

/-- Hexadecimal digits of a number, without leading zeros. -/
def hexDigits (n : Nat) : List Char := Nat.toDigits 16 n

def escapeVisible (c : Char) : List Char :=
  if c == '\x00' then ['\\', '0']
  else if c == '\t' then ['\\', 't']
  else if c == '\r' then ['\\', 'r']
  else if c == '\n' then ['\\', 'n']
  else if c == '"' then ['\\', '"']
  else if c == '\\' then ['\\', '\\']
  else if isPrintable c then [c]
  else ['\\', 'u', '\x7b'] ++ hexDigits c.toNat ++ ['\x7d']

def quoteVisible (cs : List Char) : List Char := '"' :: cs.flatMap escapeVisible ++ ['"']

end Tabular.Text

namespace Tabular

/-- The text in quotes with every unusual character escaped. -/
def quoted (s : String) : String := String.ofList (Text.quoteVisible s.toList)

end Tabular
