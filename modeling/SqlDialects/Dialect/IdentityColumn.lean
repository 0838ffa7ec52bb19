/-! # Columns whose values the database generates -/

namespace SqlDialects

inductive IdentityColumn where
  | unsupported
  /-- The clause follows the column type. -/
  | generated (clause : String) (select : Option String)
  /-- `serial` or `bigserial` takes the place of the type. -/
  | serial (select : Option String)
  /-- The column definition declares the primary key too. -/
  | rowId
  deriving DecidableEq, Repr

namespace IdentityColumn

def isSupported : IdentityColumn → Bool
  | unsupported => false
  | _ => true

/-- The type and clause of an identity column. -/
def definition? (typeName : String) (isBig : Bool) : IdentityColumn → Option String
  | unsupported => none
  | generated clause _ => some (typeName ++ " " ++ clause)
  | serial _ => some (if isBig then "bigserial" else "serial")
  | rowId => some "integer primary key autoincrement"

/-- The statement that gives the value of the last insert. -/
def lastValue? : IdentityColumn → Option String
  | unsupported => none
  | generated _ select | serial select => select
  | rowId => some "select last_insert_rowid()"

def includesPrimaryKey : IdentityColumn → Bool
  | rowId => true
  | _ => false

end IdentityColumn

end SqlDialects
