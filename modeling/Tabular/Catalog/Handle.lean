import Tabular.Catalog.Document
import Tabular.Catalog.Rows
import Tabular.Files.Basic
import Tabular.Files.Path

/-!
Catalogs in files. A handle is an open catalog with the path of its document; while it is open a
lock file stands beside the document, which only one handle can have made. Every change is written
to another file that then takes the place of the document.
-/
namespace Tabular

structure CatalogHandle where
  path : String
  catalog : Catalog
  deriving DecidableEq

namespace CatalogHandle

/-- The end of the file name of a document. -/
def documentSuffix : String := "jet.json"

/-- The end of the file name of a lock. -/
def lockSuffix : String := "jet.lock"

/-- The path of the catalog of a name in a directory. -/
def pathOf (directory name : String) : String :=
  Path.join directory (name ++ "." ++ documentSuffix)

/-- The lock beside a document. -/
def lockPath (path : String) : String :=
  Path.withFileName path ((Path.stem? path documentSuffix).getD "catalog." ++ lockSuffix)

/-- The file that a document is first written to. -/
def draftPath (path : String) : String := Path.withExtension path "tmp"

def acquireLock (path : String) : FileTask (Except Fault Unit) := do
  match ← FileTask.create (lockPath path) with
  | .ok () => return .ok ()
  | .error .alreadyPresent =>
    return .error (.resource "catalog is locked by another handle" (lockPath path))
  | .error e =>
    return .error (.resource s!"failed to lock catalog: {e.message}" (lockPath path))

def releaseLock (path : String) : FileTask (Except Fault Unit) := do
  match ← FileTask.remove (lockPath path) with
  | .ok () => return .ok ()
  | .error e =>
    return .error (.resource s!"failed to release catalog lock: {e.message}" (lockPath path))

/-- Runs a task under the lock of a catalog. The lock is kept if the task succeeds. -/
def locked {α : Type} (path : String) (task : FileTask (Except Fault α)) :
    FileTask (Except Fault α) := do
  match ← acquireLock path with
  | .error e => return .error e
  | .ok () =>
    let result ← task
    if !result.isOk then let _ ← releaseLock path
    return result

def save (h : CatalogHandle) : FileTask (Except Fault Unit) := do
  match ← FileTask.write (draftPath h.path) h.catalog.toText with
  | .error e => return .error e.fault
  | .ok () => return (← FileTask.rename (draftPath h.path) h.path).mapError FileError.fault

/-- Deletes the catalog at a path, which may be missing but must not be open. -/
def delete (path : String) : FileTask (Except Fault Unit) := do
  match ← acquireLock path with
  | .error e => return .error e
  | .ok () =>
    let removed ← FileTask.remove path
    let _ ← releaseLock path
    match removed with
    | .ok () | .error .notFound => return .ok ()
    | .error e => return .error (.resource s!"failed to delete catalog: {e.message}" path)

/-- Creates an empty catalog and opens it. -/
def create (path name : String) : FileTask (Except Fault CatalogHandle) := do
  if ← FileTask.isFile path then return .error (Refusal.databaseExists path).fault
  locked path do
    let h : CatalogHandle := ⟨path, { name, createdAt := ← FileTask.now }⟩
    return (← h.save).map fun () => h

/-- The catalog in the text of a document. -/
def ofText (path text : String) : Except Fault CatalogHandle :=
  match Catalog.parse? text with
  | none => .error (.json "not a catalog document")
  | some (version, catalog) =>
    if version = Catalog.formatVersion then .ok ⟨path, catalog⟩
    else .error (.resource s!"unsupported catalog format version {version}" path)

/-- Opens the catalog at a path. -/
def openAt (path : String) : FileTask (Except Fault CatalogHandle) := do
  if !(← FileTask.isFile path) then return .error (.resource "catalog does not exist" path)
  locked path do
    match ← FileTask.read path with
    | .error e => return .error e.fault
    | .ok text => return ofText path text

/-- Closes a handle. Its changes are in the document already. -/
def close (h : CatalogHandle) : FileTask (Except Fault Unit) := releaseLock h.path

/-- Gives up a handle, whatever becomes of its lock. -/
def abandon (h : CatalogHandle) : FileTask Unit := do let _ ← h.close

/-- Puts a changed catalog in place and writes it. The change stays even if it is not written. -/
def commit (h : CatalogHandle) (r : Except Refusal Catalog) :
    FileTask (Except Fault Unit × CatalogHandle) := do
  match r with
  | .error e => return (.error e.fault, h)
  | .ok catalog =>
    let h := { h with catalog }
    return (← h.save, h)

def appendTable (h : CatalogHandle) (name : String) (columns : List StoredColumn) :
    FileTask (Except Fault Unit × CatalogHandle) :=
  h.commit (h.catalog.appendTable name columns)

def dropTable (h : CatalogHandle) (name : String) :
    FileTask (Except Fault Unit × CatalogHandle) :=
  h.commit (h.catalog.dropTable name)

def appendKey (h : CatalogHandle) (table : String) (k : StoredKey) :
    FileTask (Except Fault Unit × CatalogHandle) :=
  h.commit (h.catalog.appendKey table k)

def insert (h : CatalogHandle) (table : String) (values : List (String × Json)) :
    FileTask (Except Fault Unit × CatalogHandle) :=
  h.commit (h.catalog.insert table values)

/-- Deletes rows and gives their number. -/
def deleteRows (h : CatalogHandle) (table : String) (criteria : List (String × Json)) :
    FileTask (Except Fault Nat × CatalogHandle) := do
  match h.catalog.deleteRows table criteria with
  | .error e => return (.error e.fault, h)
  | .ok (removed, catalog) =>
    let (written, h) ← h.commit (.ok catalog)
    return (written.map fun () => removed, h)

def rows (h : CatalogHandle) (table : String) : Except Fault (List Row) :=
  match h.catalog.locate table with
  | .ok (_, t) => .ok t.rows
  | .error e => .error e.fault

end CatalogHandle

end Tabular
