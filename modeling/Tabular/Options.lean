import Tabular.Document
import Tabular.Json.Basic

/-!
The options of a run that creates a database.
-/
namespace Tabular

structure Options where
  /-- Drop a database of that name first. -/
  overwrite : Bool := false
  /-- Put in front of every table name. -/
  tablePrefix : String := ""
  /-- The owner that qualifies table names; none if blank. -/
  owner : String := "dbo"
  /-- Create the tables in a database that exists. -/
  useExisting : Bool := false
  deriving DecidableEq, Repr, Inhabited

namespace Options

open Document

def fieldNames : List String := ["overwrite", "table_prefix", "owner", "use_existing"]

def read? {ν : Type} [Document ν] (v : ν) : Option Options := do
  let fs ← fields? fieldNames v
  return { overwrite := ← withDefault fs "overwrite" false flag?
           tablePrefix := ← withDefault fs "table_prefix" "" text?
           owner := ← withDefault fs "owner" "dbo" text?
           useExisting := ← withDefault fs "use_existing" false flag? }

def toJson (o : Options) : Json :=
  .object [("overwrite", .bool o.overwrite), ("table_prefix", .string o.tablePrefix),
    ("owner", .string o.owner), ("use_existing", .bool o.useExisting)]

end Options

end Tabular
