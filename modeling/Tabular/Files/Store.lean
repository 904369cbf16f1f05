import Tabular.Files.Basic
import Tabular.Files.Path

/-!
A store of directories and files in memory, with a working directory. It answers every query of a
task, and a path is followed component by component as a system would.
-/
namespace Tabular

/-- The names from the root down, in reverse. -/
abbrev Place := List String

inductive Content where
  | text (s : String)
  /-- Bytes that are no text. -/
  | binary
  deriving DecidableEq, Repr

inductive Entry where
  | directory
  | file (content : Content)
  deriving DecidableEq, Repr

/-- Each place stands at most once, and the root is always a directory. -/
structure Store where
  entries : List (Place × Entry) := []
  /-- The working directory. -/
  home : Place := []
  clock : Timestamp

namespace Store

/-- Nothing but the root, which is the working directory. -/
def empty : Store := { clock := .epoch }

/-- Longest name, in bytes. -/
def nameLimit : Nat := 255

/-- Longest path, in bytes. -/
def pathLimit : Nat := 4095

def entry? (s : Store) (p : Place) : Option Entry :=
  if p.isEmpty then some .directory else (s.entries.find? (·.1 == p)).map (·.2)

def put (s : Store) (p : Place) (e : Entry) : Store :=
  { s with entries := s.entries.filter (·.1 != p) ++ [(p, e)] }

def erase (s : Store) (p : Place) : Store := { s with entries := s.entries.filter (·.1 != p) }

/-- Follows components from a place. All but the last have to lead to directories. -/
def follow (s : Store) (place : Place) : List (List Char) → Except FileError Place
  | [] => .ok place
  | c :: cs =>
    match s.entry? place with
    | none => .error .notFound
    | some (.file _) => .error .notDirectory
    | some .directory =>
      if Path.isIdle c then s.follow place cs
      else if c == ['.', '.'] then s.follow place.tail cs
      else if nameLimit < (String.ofList c).utf8ByteSize then .error .nameTooLong
      else s.follow (String.ofList c :: place) cs

/-- A place that a path leads to, which need not be taken. -/
structure Target where
  place : Place
  /-- The path ends in a name, and not in a slash or a way up. -/
  isNamed : Bool
  deriving DecidableEq, Repr

/-- Where a path leads. -/
def locate (s : Store) (path : String) : Except FileError Target :=
  if path.toList.contains '\x00' then .error .invalidName
  else if path.isEmpty then .error .notFound
  else if pathLimit < path.utf8ByteSize then .error .nameTooLong
  else do
    let components := Path.components (path.toList.reverse.dropWhile (· == '/')).reverse
    let start := if path.toList.head? == some '/' then [] else s.home
    let place ← s.follow start components
    let isNamed := components.getLast?.any fun c => !Path.isIdle c && c != ['.', '.']
    return ⟨place, isNamed && path.toList.getLast? != some '/'⟩

/-- What is at the end of a path. -/
def lookUp (s : Store) (path : String) : Except FileError (Place × Entry) := do
  let target ← s.locate path
  match s.entry? target.place with
  | none => throw .notFound
  | some .directory => return (target.place, .directory)
  | some (.file content) =>
    if target.isNamed then return (target.place, .file content) else throw .notDirectory

/-- The place of a file to be written. -/
def locateFile (s : Store) (path : String) : Except FileError Place := do
  let target ← s.locate path
  if target.isNamed then return target.place else throw .isDirectory

def isFile (s : Store) (path : String) : Bool :=
  match s.lookUp path with
  | .ok (_, .file _) => true
  | _ => false

def create (s : Store) (path : String) : Except FileError Store := do
  let place ← s.locateFile path
  match s.entry? place with
  | some _ => throw .alreadyPresent
  | none => return s.put place (.file (.text ""))

def read (s : Store) (path : String) : Except FileError String := do
  match ← s.lookUp path with
  | (_, .file (.text t)) => return t
  | (_, .file .binary) => throw .notText
  | (_, .directory) => throw .isDirectory

def write (s : Store) (path : String) (content : Content) : Except FileError Store := do
  let place ← s.locateFile path
  match s.entry? place with
  | some .directory => throw .isDirectory
  | _ => return s.put place (.file content)

/-- Moves a file. A directory is neither moved nor replaced. -/
def rename (s : Store) (path target : String) : Except FileError Store := do
  match ← s.lookUp path with
  | (_, .directory) => throw .isDirectory
  | (source, .file content) =>
    let goal ← s.locate target
    if !goal.isNamed then throw .notDirectory
    match s.entry? goal.place with
    | some .directory => throw .isDirectory
    | _ => return (s.erase source).put goal.place (.file content)

def remove (s : Store) (path : String) : Except FileError Store := do
  match ← s.lookUp path with
  | (_, .directory) => throw .isDirectory
  | (place, .file _) => return s.erase place

/-- The outcome of a step, with the store it leaves behind. A failed step changes nothing. -/
def outcome (s : Store) (r : Except FileError Store) : Except FileError Unit × Store :=
  match r with
  | .ok t => (.ok (), t)
  | .error e => (.error e, s)

/-- The reply to a query, with the store it leaves behind. -/
def reply (s : Store) : (q : FileQuery) → q.Reply × Store
  | .isFile path => (s.isFile path, s)
  | .create path => s.outcome (s.create path)
  | .read path => (s.read path, s)
  | .write path text => s.outcome (s.write path (.text text))
  | .rename path target => s.outcome (s.rename path target)
  | .remove path => s.outcome (s.remove path)
  | .now => (s.clock, s)

/-- Runs a task against a store. -/
def run {α : Type} (s : Store) : FileTask α → α × Store
  | .done a => (a, s)
  | .ask q next =>
    let (r, t) := s.reply q
    t.run (next r)

/-- Makes the directories at a place and above it. -/
def makeDirectories (s : Store) : Place → Store
  | [] => s
  | name :: place =>
    let s := s.makeDirectories place
    match s.entry? (name :: place) with
    | none => s.put (name :: place) .directory
    | some _ => s

/-- Puts a file below the working directory, and the directories above it where they are missing. -/
def plant (s : Store) (path : String) (content : Content) : Store :=
  let names := (Path.components path.toList).filter (!Path.isIdle ·)
  let place := (names.map String.ofList).reverse ++ s.home
  (s.makeDirectories place.tail).put place (.file content)

/-- The names from one place down to another. -/
def below? (home place : Place) : Option (List String) :=
  if home.isSuffixOf place then some (place.take (place.length - home.length)).reverse else none

def orderedInsert (name : String) : List String → List String
  | [] => [name]
  | n :: ns => if n < name then n :: orderedInsert name ns else name :: n :: ns

/-- The files below the working directory, in order. -/
def listing (s : Store) : List String :=
  let names := s.entries.filterMap fun
    | (place, .file _) => (below? s.home place).map (String.intercalate "/")
    | (_, .directory) => none
  names.foldl (fun acc n => orderedInsert n acc) []

end Store

end Tabular
