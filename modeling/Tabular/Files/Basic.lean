import Tabular.Dialogue
import Tabular.Fault
import Tabular.Timestamp

/-!
Steps on files, as queries. Each query is one step that the file system takes at once, so what
several tasks do to the same files is an interleaving of their queries.
-/
namespace Tabular

/-- Why a step on a file failed. -/
inductive FileError where
  | notFound
  | alreadyPresent
  | notDirectory
  | isDirectory
  | nameTooLong
  /-- The path holds a NUL character. -/
  | invalidName
  /-- The content is no text. -/
  | notText
  | other (message : String)
  deriving DecidableEq, Repr

namespace FileError

def message : FileError → String
  | notFound => "No such file or directory (os error 2)"
  | alreadyPresent => "File exists (os error 17)"
  | notDirectory => "Not a directory (os error 20)"
  | isDirectory => "Is a directory (os error 21)"
  | nameTooLong => "File name too long (os error 36)"
  | invalidName => "file name contained an unexpected NUL byte"
  | notText => "stream did not contain valid UTF-8"
  | other message => message

def fault (e : FileError) : Fault := .io e.message

end FileError

inductive FileQuery where
  /-- Is there a file at the path? -/
  | isFile (path : String)
  /-- Makes an empty file where nothing is yet. -/
  | create (path : String)
  | read (path : String)
  /-- Replaces the content of a file, which is made if missing. -/
  | write (path text : String)
  /-- Moves a file to another path, in place of the file there. -/
  | rename (path target : String)
  | remove (path : String)
  | now
  deriving DecidableEq, Repr

def FileQuery.Reply : FileQuery → Type
  | isFile _ => Bool
  | read _ => Except FileError String
  | create _ | write .. | rename .. | remove _ => Except FileError Unit
  | now => Timestamp

/-- A computation over files. -/
abbrev FileTask := Dialogue FileQuery FileQuery.Reply

namespace FileTask

def isFile (path : String) : FileTask Bool := Dialogue.query (FileQuery.isFile path)

def create (path : String) : FileTask (Except FileError Unit) :=
  Dialogue.query (FileQuery.create path)

def read (path : String) : FileTask (Except FileError String) :=
  Dialogue.query (FileQuery.read path)

def write (path text : String) : FileTask (Except FileError Unit) :=
  Dialogue.query (FileQuery.write path text)

def rename (path target : String) : FileTask (Except FileError Unit) :=
  Dialogue.query (FileQuery.rename path target)

def remove (path : String) : FileTask (Except FileError Unit) :=
  Dialogue.query (FileQuery.remove path)

def now : FileTask Timestamp := Dialogue.query FileQuery.now

end FileTask

end Tabular
