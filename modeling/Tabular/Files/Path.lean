/-!
Paths as texts. Slashes divide a path into components; an empty component and a component `.`
behind a slash name nothing, so that a path and the path with a slash behind it have one name.
-/
namespace Tabular

namespace Path

/-- A reversed path without the components at its end that name nothing. -/
def trimIdle : List Char → List Char
  | ['/'] => ['/']
  | '/' :: cs => trimIdle cs
  | '.' :: '/' :: cs => trimIdle ('/' :: cs)
  | cs => cs

/-- The reversed path up to the end of its last component. -/
def trimmed (path : String) : List Char := trimIdle path.toList.reverse

/-- The last component, unless it is the root, the directory itself or the one above. -/
def fileName? (path : String) : Option String :=
  let component := (trimmed path).takeWhile (· != '/')
  if component ∈ [[], ['.'], ['.', '.']] then none else some (String.ofList component.reverse)

/-- The path without its last component. -/
def parent (path : String) : String :=
  String.ofList (trimIdle ((trimmed path).dropWhile (· != '/'))).reverse

/-- A path that starts in a directory. One from the root stays as it is. -/
def join (directory path : String) : String :=
  if path.toList.head? == some '/' then path
  else if directory.toList.getLast?.all (· == '/') then directory ++ path
  else directory ++ "/" ++ path

/-- The path with another last component, or with one more if it has none. -/
def withFileName (path name : String) : String :=
  match fileName? path with
  | some _ => join (parent path) name
  | none => join path name

/-- The reversed part of a reversed file name before its last dot, and the part behind. A dot in
front does not count. -/
def splitExtension (name : List Char) : List Char × Option (List Char) :=
  match name.dropWhile (· != '.') with
  | _ :: stem => if stem.isEmpty then (name, none) else (stem, some (name.takeWhile (· != '.')))
  | [] => (name, none)

/-- What stands behind the last dot of the file name. -/
def extension? (path : String) : Option String := do
  let name ← fileName? path
  return String.ofList (← (splitExtension name.toList.reverse).2).reverse

/-- The path with another extension, or with one more if it has none. -/
def withExtension (path extension : String) : String :=
  match fileName? path with
  | none => path
  | some name =>
    let (stem, _) := splitExtension name.toList.reverse
    let directory := (trimmed path).dropWhile (· != '/')
    String.ofList (stem ++ directory).reverse ++ "." ++ extension

/-- The path without the `suffix` of its last component. -/
def stem? (path suffix : String) : Option String := do
  let name ← fileName? path
  if suffix.toList.isSuffixOf name.toList then
    some (String.ofList (name.toList.take (name.length - suffix.length)))
  else none

/-- Divides a text at every slash. -/
def components : List Char → List (List Char)
  | [] => [[]]
  | c :: cs =>
    if c = '/' then [] :: components cs
    else
      match components cs with
      | [] => [[c]]
      | p :: ps => (c :: p) :: ps

/-- Does a component name nothing? -/
def isIdle (component : List Char) : Bool := component == [] || component == ['.']

end Path

end Tabular
