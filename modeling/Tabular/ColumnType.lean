/-!
The abstract types of columns, with a display name and a key for documents.
-/
namespace Tabular

inductive ColumnType where
  | int64 | uInt64 | int32 | uInt32 | int16 | uInt16
  | byte | boolean | char | dateTime | double | decimal | guid | string | timeSpan
  /-- Binary data. -/
  | binary
  /-- Character data of any length. -/
  | charBlob
  deriving DecidableEq, Repr, Inhabited

namespace ColumnType

def all : List ColumnType :=
  [int64, uInt64, int32, uInt32, int16, uInt16, byte, boolean, char, dateTime, double, decimal,
    guid, string, timeSpan, binary, charBlob]

/-- The name in messages. -/
def name : ColumnType → String
  | int64 => "Int64"
  | uInt64 => "UInt64"
  | int32 => "Int32"
  | uInt32 => "UInt32"
  | int16 => "Int16"
  | uInt16 => "UInt16"
  | byte => "Byte"
  | boolean => "Boolean"
  | char => "Char"
  | dateTime => "DateTime"
  | double => "Double"
  | decimal => "Decimal"
  | guid => "Guid"
  | string => "String"
  | timeSpan => "TimeSpan"
  | binary => "Byte[]"
  | charBlob => "Char[]"

/-- The key in documents. -/
def key : ColumnType → String
  | int64 => "int64"
  | uInt64 => "u_int64"
  | int32 => "int32"
  | uInt32 => "u_int32"
  | int16 => "int16"
  | uInt16 => "u_int16"
  | byte => "byte"
  | boolean => "boolean"
  | char => "char"
  | dateTime => "date_time"
  | double => "double"
  | decimal => "decimal"
  | guid => "guid"
  | string => "string"
  | timeSpan => "time_span"
  | binary => "binary"
  | charBlob => "char_blob"

def ofKey? (s : String) : Option ColumnType := all.find? (·.key == s)

theorem ofKey?_key (t : ColumnType) : ofKey? t.key = some t := by cases t <;> decide

/-- Types with a meaningful length. -/
def isSized : ColumnType → Bool
  | string | binary | charBlob => true
  | _ => false

end ColumnType

end Tabular
