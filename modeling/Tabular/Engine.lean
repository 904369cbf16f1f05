import Tabular.Fault
import Tabular.Text.Blank
import Tabular.Text.LowerCase

/-!
The closed set of target engines.
-/
namespace Tabular

inductive Engine where
  /-- SQL Server, driven by a script of statements. -/
  | sql
  /-- A desktop catalog in a file, driven by catalog operations. -/
  | jet
  /-- A generic OLE DB provider, known but not supported. -/
  | oledb
  deriving DecidableEq, Repr, Inhabited

namespace Engine

def all : List Engine := [sql, jet, oledb]

def name : Engine → String
  | sql => "sql"
  | jet => "jet"
  | oledb => "oledb"

/-- Only a server needs a host to connect to. -/
def requiresLocation : Engine → Bool
  | sql => true
  | _ => false

def ensureSupported : Engine → Except Fault Unit
  | oledb => .error (.argument "type" "The OleDb engine type is not supported")
  | _ => .ok ()

/-- Reads an engine name in any case, blanks around it allowed. -/
def parse (s : String) : Except Fault Engine :=
  let name := lowered (trimmed s)
  if name ∈ ["sql", "mssql", "sqlserver"] then .ok sql
  else if name ∈ ["jet", "access"] then .ok jet
  else if name ∈ ["oledb", "ole"] then .ok oledb
  else .error (.argument "type" s!"unknown engine type '{name}' (expected sql, jet or oledb)")

def ofName? (s : String) : Option Engine := all.find? (·.name == s)

end Engine

end Tabular
