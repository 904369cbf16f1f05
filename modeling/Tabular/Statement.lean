import Tabular.Identifier
import Tabular.TypeMap

/-!
Statements of SQL Server as data, and their texts. Names stand in brackets, or as escaped text
inside a literal.
-/
namespace Tabular

/-- A table name with an owner in front of it, if there is one. -/
structure QualifiedName where
  owner : Option Identifier
  table : Identifier
  deriving DecidableEq, Repr

namespace QualifiedName

def toText (q : QualifiedName) : String :=
  match q.owner with
  | some o => o.quoted ++ "." ++ q.table.quoted
  | none => q.table.quoted

/-- Qualifies a table by an owner; a blank owner leaves it alone. -/
def ofOwner (owner : String) (table : Identifier) : Except Fault QualifiedName := do
  if isBlankText owner then return ⟨none, table⟩
  else return ⟨some (← Identifier.forServer owner), table⟩

end QualifiedName

namespace SqlText

def createDatabase (database : Identifier) (overwrite : Bool) : String :=
  let literal := Identifier.escapeLiteral database.bare
  let name := database.quoted
  if overwrite then
    "IF DB_ID(N'" ++ literal ++ "') IS NOT NULL\nBEGIN\n    ALTER DATABASE " ++ name ++
      " SET SINGLE_USER WITH ROLLBACK IMMEDIATE;\n    DROP DATABASE " ++ name ++
      ";\nEND;\nCREATE DATABASE " ++ name ++ ";"
  else
    "IF DB_ID(N'" ++ literal ++ "') IS NULL\n    CREATE DATABASE " ++ name ++ ";"

def useDatabase (database : Identifier) : String := "USE " ++ database.quoted ++ ";"

/-- Drops the foreign keys on a table of that name and the table, and creates it. -/
def createTable (table : String) (definitions : List String) : String :=
  let literal := Identifier.escapeLiteral table
  "DECLARE @drop_fk nvarchar(max) = N'';\n" ++
  "SELECT @drop_fk += N'ALTER TABLE ' + QUOTENAME(OBJECT_SCHEMA_NAME(fk.parent_object_id))" ++
  " + N'.' + QUOTENAME(OBJECT_NAME(fk.parent_object_id)) + N' DROP CONSTRAINT '" ++
  " + QUOTENAME(fk.name) + N';'\n" ++
  "FROM sys.foreign_keys fk WHERE fk.referenced_object_id = OBJECT_ID(N'" ++ literal ++
  "', N'U');\n" ++
  "EXEC sp_executesql @drop_fk;\n" ++
  "IF OBJECT_ID(N'" ++ literal ++ "', N'U') IS NOT NULL DROP TABLE " ++ table ++ ";\n" ++
  "CREATE TABLE " ++ table ++ " (\n    " ++ String.intercalate ",\n    " definitions ++ "\n);"

def columnList (columns : List Identifier) : String :=
  String.intercalate ", " (columns.map (·.quoted))

def primaryKey (table : String) (constraint : Identifier) (columns : List Identifier) : String :=
  "ALTER TABLE " ++ table ++ " WITH NOCHECK ADD CONSTRAINT " ++ constraint.quoted ++
    " PRIMARY KEY CLUSTERED (" ++ columnList columns ++ ");"

/-- A foreign key deletes children with their parent and refuses updates. -/
def foreignKey (child : String) (constraint : Identifier) (childColumns : List Identifier)
    (parent : String) (parentColumns : List Identifier) : String :=
  "ALTER TABLE " ++ child ++ " ADD CONSTRAINT " ++ constraint.quoted ++ " FOREIGN KEY (" ++
    columnList childColumns ++ ") REFERENCES " ++ parent ++ " (" ++ columnList parentColumns ++
    ") ON DELETE CASCADE ON UPDATE NO ACTION;"

/-- The line that ends a batch of a script. -/
def batchSeparator : String := "GO"

end SqlText

structure ColumnDefinition where
  name : Identifier
  type : SqlType
  deriving DecidableEq, Repr

def ColumnDefinition.toText (c : ColumnDefinition) : String :=
  c.name.quoted ++ " " ++ c.type.toText

inductive Command where
  | createDatabase (database : Identifier) (overwrite : Bool)
  | useDatabase (database : Identifier)
  | createTable (table : QualifiedName) (columns : List ColumnDefinition)
  | primaryKey (table : QualifiedName) (constraint : Identifier) (columns : List Identifier)
  | foreignKey (child : QualifiedName) (constraint : Identifier) (childColumns : List Identifier)
      (parent : QualifiedName) (parentColumns : List Identifier)
  deriving DecidableEq, Repr

inductive CommandKind where
  | createDatabase | useDatabase | createTable | primaryKey | foreignKey
  deriving DecidableEq, Repr

def CommandKind.all : List CommandKind :=
  [createDatabase, useDatabase, createTable, primaryKey, foreignKey]

def CommandKind.name : CommandKind → String
  | createDatabase => "create_database"
  | useDatabase => "use_database"
  | createTable => "create_table"
  | primaryKey => "primary_key"
  | foreignKey => "foreign_key"

namespace Command

def kind : Command → CommandKind
  | createDatabase .. => .createDatabase
  | useDatabase .. => .useDatabase
  | createTable .. => .createTable
  | primaryKey .. => .primaryKey
  | foreignKey .. => .foreignKey

def toText : Command → String
  | createDatabase database overwrite => SqlText.createDatabase database overwrite
  | useDatabase database => SqlText.useDatabase database
  | createTable table columns =>
    SqlText.createTable table.toText (columns.map ColumnDefinition.toText)
  | primaryKey table constraint columns => SqlText.primaryKey table.toText constraint columns
  | foreignKey child constraint childColumns parent parentColumns =>
    SqlText.foreignKey child.toText constraint childColumns parent.toText parentColumns

end Command

/-- A command and the name of the entity that it creates. -/
structure Statement where
  entity : String
  command : Command
  deriving DecidableEq, Repr

namespace Statement

def kind (s : Statement) : CommandKind := s.command.kind

def sql (s : Statement) : String := s.command.toText

end Statement

end Tabular
