import Tabular.Dataset.Reader
import Tabular.Files.Basic
import Tabular.Files.Path
import Tabular.Json.Parser
import Tabular.Schema.Document
import Tabular.Yaml.Document

/-!
Schemas from files. The extension of the file name tells the format; a name with any other
extension, or with none, is the name of a dataset without its extension.
-/
namespace Tabular

inductive SourceFormat where
  | dataset | json | yaml
  deriving DecidableEq, Repr

namespace SourceFormat

/-- The extension of a path in small letters. -/
def extension? (path : String) : Option String :=
  (Path.extension? path).map fun e => String.ofList (e.toList.map Char.toLower)

def ofPath (path : String) : SourceFormat :=
  match extension? path with
  | some "json" => .json
  | some "yaml" | some "yml" => .yaml
  | _ => .dataset

def known : List String := ["xsd", "json", "yaml", "yml"]

end SourceFormat

namespace Schema

/-- The file that a schema argument names. -/
def sourcePath (path : String) : String :=
  if (SourceFormat.extension? path).any SourceFormat.known.contains then path else path ++ ".xsd"

/-- Reads a schema in a format. -/
def ofText (format : SourceFormat) (text : String) : Except Fault Schema :=
  match format with
  | .dataset => Dataset.parse text
  | .json =>
    match (JsonTree.parse text).bind read? with
    | some s => .ok s
    | none => .error (.json "not a schema")
  | .yaml =>
    match Yaml.read? read? text with
    | some s => .ok s
    | none => .error (.yaml "not a schema")

/-- Reads the schema that an argument names. -/
def load (argument : String) : ExceptT Fault FileTask Schema := do
  let path := sourcePath argument
  if !(← ExceptT.lift (FileTask.isFile path)) then throw (.missingFile path)
  let text ← ExceptT.mk (do return (← FileTask.read path).mapError FileError.fault)
  ExceptT.mk (pure (ofText (.ofPath path) text))

end Schema

end Tabular
