import Tabular.Fault
import Tabular.Engine
import Tabular.Schema

/-!
The counterpart of an abstract type on an engine: a SQL Server type, or a native type of a catalog
with its defined size. Five of the SQL Server counterparts lose range or precision and say so.
-/
namespace Tabular

/-- A SQL Server type without its null clause. -/
inductive SqlBase where
  | bigint | int | smallint | tinyint | bit | char | datetime | float | real | uniqueidentifier
  | text
  | varchar (length : Nat)
  | varcharMax
  | varbinary (length : Nat)
  | varbinaryMax
  deriving DecidableEq, Repr

def SqlBase.toText : SqlBase → String
  | bigint => "bigint"
  | int => "int"
  | smallint => "smallint"
  | tinyint => "tinyint"
  | bit => "bit"
  | char => "char"
  | datetime => "datetime"
  | float => "float"
  | real => "real"
  | uniqueidentifier => "uniqueidentifier"
  | text => "text"
  | varchar n => s!"varchar({n})"
  | varcharMax => "varchar(max)"
  | varbinary n => s!"varbinary({n})"
  | varbinaryMax => "varbinary(max)"

def nullClause (nullable : Bool) : String := if nullable then "NULL" else "NOT NULL"

structure SqlType where
  base : SqlBase
  nullable : Bool
  deriving DecidableEq, Repr

def SqlType.toText (t : SqlType) : String := t.base.toText ++ " " ++ nullClause t.nullable

/-- The kinds of values that a catalog stores. -/
inductive NativeKind where
  | bigInt | unsignedBigInt | integer | unsignedInt | smallInt | unsignedSmallInt | tinyInt
  | boolean | wChar | date | dbTime | double | decimal | guid | longVarWChar | longVarBinary
  deriving DecidableEq, Repr, Inhabited

namespace NativeKind

def all : List NativeKind :=
  [bigInt, unsignedBigInt, integer, unsignedInt, smallInt, unsignedSmallInt, tinyInt, boolean,
    wChar, date, dbTime, double, decimal, guid, longVarWChar, longVarBinary]

def name : NativeKind → String
  | bigInt => "BigInt"
  | unsignedBigInt => "UnsignedBigInt"
  | integer => "Integer"
  | unsignedInt => "UnsignedInt"
  | smallInt => "SmallInt"
  | unsignedSmallInt => "UnsignedSmallInt"
  | tinyInt => "TinyInt"
  | boolean => "Boolean"
  | wChar => "WChar"
  | date => "Date"
  | dbTime => "DbTime"
  | double => "Double"
  | decimal => "Decimal"
  | guid => "Guid"
  | longVarWChar => "LongVarWChar"
  | longVarBinary => "LongVarBinary"

def ofName? (s : String) : Option NativeKind := all.find? (·.name == s)

end NativeKind

/-- A native type: the kind, the size in characters or bytes (0 for dates and long values), and
whether null is a value. -/
structure NativeType where
  kind : NativeKind
  size : UInt32
  nullable : Bool
  deriving DecidableEq, Repr, Inhabited

def NativeType.toText (t : NativeType) : String :=
  s!"{t.kind.name}({t.size}) " ++ nullClause t.nullable

/-- Longest text or binary column of a bounded SQL Server type. -/
def sqlLengthLimit : Int := 8000

/-- Longest text column of a bounded native type. -/
def nativeLengthLimit : Int := 255

/-- The SQL Server counterpart of a type with a greatest length. -/
def SqlBase.of? (type : ColumnType) (maxLength : Int32) : Option SqlBase :=
  let n := maxLength.toInt
  match type with
  | .int64 | .uInt64 => some .bigint
  | .int32 | .uInt32 | .timeSpan => some .int
  | .int16 | .uInt16 => some .smallint
  | .byte => some .tinyint
  | .boolean => some .bit
  | .char => some .char
  | .dateTime => some .datetime
  | .double => some .float
  | .decimal => some .real
  | .guid => some .uniqueidentifier
  | .string =>
    some (if n < 1 then .text else if sqlLengthLimit < n then .varcharMax else .varchar n.toNat)
  | .binary =>
    some (if 1 ≤ n && n ≤ sqlLengthLimit then .varbinary n.toNat else .varbinaryMax)
  | .charBlob => none

/-- What is lost where SQL Server has no exact counterpart. -/
def sqlLoss? : ColumnType → Option String
  | .uInt64 => some "UInt64 stored as signed bigint; values above 9223372036854775807 overflow"
  | .uInt32 => some "UInt32 stored as signed int; values above 2147483647 overflow"
  | .uInt16 => some "UInt16 stored as signed smallint; values above 32767 overflow"
  | .decimal => some "Decimal narrowed to real; precision beyond 7 digits is lost"
  | .timeSpan => some "TimeSpan stored as a plain int"
  | _ => none

/-- The native counterpart of a type with a greatest length. -/
def NativeKind.of (type : ColumnType) (maxLength : Int32) : NativeKind × UInt32 :=
  let n := maxLength.toInt
  match type with
  | .int64 => (bigInt, 8)
  | .uInt64 => (unsignedBigInt, 8)
  | .int32 => (integer, 4)
  | .uInt32 => (unsignedInt, 4)
  | .int16 => (smallInt, 2)
  | .uInt16 => (unsignedSmallInt, 2)
  | .byte => (tinyInt, 1)
  | .boolean => (boolean, 2)
  | .char => (wChar, 1)
  | .dateTime => (date, 0)
  | .double => (double, 8)
  | .decimal => (decimal, 16)
  | .guid => (guid, 16)
  | .timeSpan => (dbTime, 8)
  | .string =>
    if 1 ≤ n && n ≤ nativeLengthLimit then (wChar, UInt32.ofNat n.toNat) else (longVarWChar, 0)
  | .binary => (longVarBinary, 0)
  | .charBlob => (longVarWChar, 0)

/-- A column's type on an engine. -/
inductive Descriptor where
  | sql (type : SqlType)
  | native (type : NativeType)
  deriving DecidableEq, Repr

def Descriptor.toText : Descriptor → String
  | sql t => t.toText
  | native t => t.toText

def Descriptor.sql? : Descriptor → Option SqlType
  | sql t => some t
  | native _ => none

def Descriptor.native? : Descriptor → Option NativeType
  | sql _ => none
  | native t => some t

/-- A counterpart with a warning where something is lost. -/
structure TypeMapping where
  descriptor : Descriptor
  warning : Option String
  deriving DecidableEq, Repr

def TypeMapping.isLossy (m : TypeMapping) : Bool := m.warning.isSome

/-- A type of SQL Server for a column type, or none. -/
def SqlType.of? (type : ColumnType) (maxLength : Int32) (nullable : Bool) : Option SqlType :=
  (SqlBase.of? type maxLength).map (⟨·, nullable⟩)

def NativeType.of (type : ColumnType) (maxLength : Int32) (nullable : Bool) : NativeType :=
  let (kind, size) := NativeKind.of type maxLength
  ⟨kind, size, nullable⟩

/-- The counterpart on an engine. A fault names neither table nor column. -/
def Engine.mapType (engine : Engine) (type : ColumnType) (maxLength : Int32) (nullable : Bool) :
    Except Fault TypeMapping :=
  match engine with
  | .sql =>
    match SqlType.of? type maxLength nullable with
    | some t => .ok ⟨.sql t, sqlLoss? type⟩
    | none => .error (.unsupportedType "" "" type.name engine.name)
  | .jet => .ok ⟨.native (NativeType.of type maxLength nullable), none⟩
  | .oledb => .error (.unsupportedType "" "" type.name engine.name)

/-- What a message calls a type that could not be found. -/
def Column.sourceName (c : Column) : String := c.sourceType.getD "?"

/-- Key columns never take null. -/
def Column.nullableIn (c : Column) (t : Table) : Bool := c.nullable && !t.isKeyColumn c.name

/-- The type of a table's column, if one was found. -/
def Column.resolvedType (c : Column) (t : Table) : Except Fault ColumnType :=
  match c.type with
  | some type => .ok type
  | none => .error (.argument t.name s!"cannot resolve type '{c.sourceName}' of column {c.name}")

/-- The SQL Server type of a table's column. -/
def Column.sqlType (c : Column) (t : Table) : Except Fault SqlType := do
  let type ← c.resolvedType t
  match SqlType.of? type c.maxLength (c.nullableIn t) with
  | some s => .ok s
  | none => .error (.unsupportedType t.name c.name type.name Engine.sql.name)

/-- What is lost in the SQL Server type of a column. -/
def Column.sqlLoss? (c : Column) : Option String := c.type.bind Tabular.sqlLoss?

/-- The native type of a table's column. -/
def Column.nativeType (c : Column) (t : Table) : Except Fault NativeType := do
  let type ← c.resolvedType t
  return NativeType.of type c.maxLength (c.nullableIn t)

/-- The counterpart of a table's column. -/
def Engine.mapColumn (engine : Engine) (t : Table) (c : Column) : Except Fault TypeMapping :=
  match engine with
  | .sql => do return ⟨.sql (← c.sqlType t), c.sqlLoss?⟩
  | .jet => do return ⟨.native (← c.nativeType t), none⟩
  | .oledb => do
    let type ← c.resolvedType t
    .error (.unsupportedType t.name c.name type.name engine.name)

end Tabular
