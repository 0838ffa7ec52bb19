import SqlDialects.Error
import SqlDialects.Text.Case

/-! # Database products -/

namespace SqlDialects

inductive Product where
  | ingres
  | postgreSql
  | mySql
  | sqlite
  | sqlServer
  deriving DecidableEq, Repr

namespace Product

def all : List Product := [ingres, postgreSql, mySql, sqlite, sqlServer]

/-- The spelling in settings. -/
def name : Product → String
  | ingres => "ingres"
  | postgreSql => "postgre_sql"
  | mySql => "my_sql"
  | sqlite => "sqlite"
  | sqlServer => "sql_server"

def displayName : Product → String
  | ingres => "Ingres"
  | postgreSql => "PostgreSQL"
  | mySql => "MySQL"
  | sqlite => "SQLite"
  | sqlServer => "SQL Server"

/-- The names that connections report, in small letters. -/
def reportedNames : Product → List String
  | ingres => ["ingres", "actian ingres", "actian x", "vector"]
  | postgreSql => ["postgresql", "postgres", "pg", "pgsql"]
  | mySql => ["mysql", "mariadb"]
  | sqlite => ["sqlite", "sqlite3"]
  | sqlServer => ["sqlserver", "sql server", "microsoft sql server", "mssql", "sql_server"]

/-- Blanks around the name and letter case make no difference. -/
def ofName (name : String) : Except DialectError Product :=
  let normal := Text.lower (Text.trim name)
  match all.find? fun product => product.reportedNames.contains normal with
  | some product => .ok product
  | none => .error (.unknownProduct name)

/-- The version where none is given. -/
def defaultVersion : Product → Version
  | ingres => ⟨10, 2, 0⟩
  | postgreSql => ⟨15, 0, 0⟩
  | mySql => ⟨8, 0, 0⟩
  | sqlite => ⟨3, 45, 0⟩
  | sqlServer => ⟨16, 0, 0⟩

end Product

/-- What a connection says of its database. -/
structure ConnectionInfo where
  productName : String
  major : UInt16
  minor : UInt16

def ConnectionInfo.version (info : ConnectionInfo) : Version := ⟨info.major, info.minor, 0⟩

end SqlDialects
