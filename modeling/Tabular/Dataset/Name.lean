import Tabular.ColumnType
import Tabular.Fault
import Tabular.Markup.Element
import Tabular.Text.Blank

/-!
Names in data-set documents: qualified names, the paths of selectors and fields, type names and
numbers.
-/
namespace Tabular.Dataset

open Markup

def schemaUri : String := "http://www.w3.org/2001/XMLSchema"

/-- The namespace of annotations about tables and columns. -/
def annotationUri : String := "urn:schemas-microsoft-com:xml-msdata"

def isSchemaElement (e : Element) (name : String) : Bool := e.isNamed schemaUri name

def annotation? (e : Element) (name : String) : Option String := e.attributeIn? annotationUri name

/-- The part of a list behind its last separator. -/
def afterLast (separator : Char) (cs : List Char) : List Char :=
  (cs.reverse.takeWhile (· != separator)).reverse

/-- The part of a qualified name behind its last colon. -/
def localName (name : String) : String := String.ofList (afterLast ':' name.toList)

/-- The part of a qualified name in front of its first colon. -/
def namePrefix? (name : String) : Option String :=
  if name.toList.contains ':' then some (String.ofList (name.toList.takeWhile (· != ':')))
  else none

/-- The word `true` in any case, blanks around it allowed. -/
def isTrue (value : String) : Bool :=
  (Text.trim value.toList).map Char.toLower == "true".toList

/-- The table that a selector's path names. -/
def selectorTable (path : String) : String :=
  let cs := ((Text.trim path.toList).dropWhile (· == '.')).dropWhile (· == '/')
  localName (String.ofList (afterLast '/' cs))

/-- The column that a field's path names. -/
def fieldColumn (path : String) : String :=
  localName (String.ofList ((Text.trim path.toList).dropWhile (· == '@')))

/-- The words of a text, with the letters of the word under way. -/
def wordsFrom (word : List Char) : List Char → List (List Char)
  | [] => if word.isEmpty then [] else [word.reverse]
  | c :: cs =>
    if !Text.isBlank c then wordsFrom (c :: word) cs
    else if word.isEmpty then wordsFrom [] cs
    else word.reverse :: wordsFrom [] cs

/-- The columns that a relationship lists. -/
def keyList (value : String) : List String := (wordsFrom [] value.toList).map String.ofList

/-- The digits of a number, if they are digits and there is one. -/
def decimal? (cs : List Char) : Option Nat :=
  if cs.isEmpty || !cs.all Char.isDigit then none
  else some (cs.foldl (fun n c => 10 * n + (c.toNat - '0'.toNat)) 0)

/-- A length of 32 bits, with a sign or without. -/
def length? (value : String) : Option Int32 := do
  let n : Int ← match Text.trim value.toList with
    | '-' :: cs => (decimal? cs).map fun n => -(n : Int)
    | '+' :: cs => (decimal? cs).map Int.ofNat
    | cs => (decimal? cs).map Int.ofNat
  if -0x80000000 ≤ n && n < 0x80000000 then some (Int32.ofInt n) else none

/-- An attribute that has to be there and not be blank. -/
def required (e : Element) (name what : String) : Except Fault String :=
  match e.attribute? name with
  | some value =>
    if isBlankText value then .error (.schemaFormat s!"{what} without a '{name}' attribute")
    else .ok value
  | none => .error (.schemaFormat s!"{what} without a '{name}' attribute")

/-- The column type with that display name, without a leading `System.` and without what follows a
comma. -/
def annotatedType? (name : String) : Option ColumnType :=
  let cs := Text.trim (name.toList.takeWhile (· != ','))
  let namespaceText := "System.".toList
  let cs := if namespaceText.isPrefixOf cs then cs.drop namespaceText.length else cs
  ColumnType.all.find? (·.name == String.ofList cs)

/-- The column type of a type built into XML Schema. -/
def builtinType? (name : String) : Option ColumnType :=
  if name ∈ ["long", "integer", "negativeInteger", "nonPositiveInteger"] then some .int64
  else if name ∈ ["unsignedLong", "nonNegativeInteger", "positiveInteger"] then some .uInt64
  else if name == "int" then some .int32
  else if name == "unsignedInt" then some .uInt32
  else if name == "short" then some .int16
  else if name == "unsignedShort" then some .uInt16
  else if name == "unsignedByte" then some .byte
  else if name == "boolean" then some .boolean
  else if name ∈ ["dateTime", "date", "time"] then some .dateTime
  else if name == "double" then some .double
  else if name == "decimal" then some .decimal
  else if name == "duration" then some .timeSpan
  else if name ∈ ["base64Binary", "hexBinary"] then some .binary
  else if name ∈ ["string", "normalizedString", "token", "Name", "NCName", "NMTOKEN", "ID", "IDREF",
      "language", "QName", "ENTITY"] then some .string
  else none

end Tabular.Dataset
