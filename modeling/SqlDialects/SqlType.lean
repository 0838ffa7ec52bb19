/-! # Type codes of columns -/

namespace SqlDialects

/-- A column type without the spelling that a product gives it. -/
inductive SqlType where
  | bit
  | boolean
  | tinyInt
  | smallInt
  | integer
  | bigInt
  | real
  | float
  | double
  | numeric
  | decimal
  | char
  | varchar
  | longVarchar
  | nChar
  | nVarchar
  | longNVarchar
  | binary
  | varbinary
  | longVarbinary
  | date
  | time
  | timestamp
  | timestampWithTimeZone
  | blob
  | clob
  | nClob
  | uuid
  deriving DecidableEq, Repr

namespace SqlType

def all : List SqlType :=
  [bit, boolean, tinyInt, smallInt, integer, bigInt, real, float, double, numeric, decimal, char,
    varchar, longVarchar, nChar, nVarchar, longNVarchar, binary, varbinary, longVarbinary, date,
    time, timestamp, timestampWithTimeZone, blob, clob, nClob, uuid]

/-- The spelling in settings. -/
def name : SqlType → String
  | bit => "bit"
  | boolean => "boolean"
  | tinyInt => "tiny_int"
  | smallInt => "small_int"
  | integer => "integer"
  | bigInt => "big_int"
  | real => "real"
  | float => "float"
  | double => "double"
  | numeric => "numeric"
  | decimal => "decimal"
  | char => "char"
  | varchar => "varchar"
  | longVarchar => "long_varchar"
  | nChar => "n_char"
  | nVarchar => "n_varchar"
  | longNVarchar => "long_n_varchar"
  | binary => "binary"
  | varbinary => "varbinary"
  | longVarbinary => "long_varbinary"
  | date => "date"
  | time => "time"
  | timestamp => "timestamp"
  | timestampWithTimeZone => "timestamp_with_time_zone"
  | blob => "blob"
  | clob => "clob"
  | nClob => "n_clob"
  | uuid => "uuid"

def ofName? (name : String) : Option SqlType := all.find? (·.name == name)

/-- The spelling in error messages. -/
def label : SqlType → String
  | bit => "Bit"
  | boolean => "Boolean"
  | tinyInt => "TinyInt"
  | smallInt => "SmallInt"
  | integer => "Integer"
  | bigInt => "BigInt"
  | real => "Real"
  | float => "Float"
  | double => "Double"
  | numeric => "Numeric"
  | decimal => "Decimal"
  | char => "Char"
  | varchar => "Varchar"
  | longVarchar => "LongVarchar"
  | nChar => "NChar"
  | nVarchar => "NVarchar"
  | longNVarchar => "LongNVarchar"
  | binary => "Binary"
  | varbinary => "Varbinary"
  | longVarbinary => "LongVarbinary"
  | date => "Date"
  | time => "Time"
  | timestamp => "Timestamp"
  | timestampWithTimeZone => "TimestampWithTimeZone"
  | blob => "Blob"
  | clob => "Clob"
  | nClob => "NClob"
  | uuid => "Uuid"

/-- Character and binary types whose definition takes a length. -/
def isSized : SqlType → Bool
  | char | varchar | longVarchar | nChar | nVarchar | longNVarchar | binary | varbinary
  | longVarbinary => true
  | _ => false

def isCharacter : SqlType → Bool
  | char | varchar | longVarchar | nChar | nVarchar | longNVarchar | clob | nClob => true
  | _ => false

end SqlType

end SqlDialects
