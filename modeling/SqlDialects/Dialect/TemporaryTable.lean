/-! # Temporary tables for statements over several tables -/

namespace SqlDialects

inductive TemporaryTableKind where
  /-- Seen by one connection. -/
  | connection
  /-- Declared once, with rows of its own for each session. -/
  | session
  deriving DecidableEq, Repr

structure TemporaryTable where
  kind : TemporaryTableKind
  createCommand : String
  createOptions : Option String := none
  /-- Stands in front of every table name. -/
  namePrefix : String
  deriving DecidableEq, Repr

namespace TemporaryTable

def forConnection (createCommand namePrefix : String) : TemporaryTable :=
  { kind := .connection, createCommand, namePrefix }

def forSessions (createCommand : String) (createOptions : Option String) (namePrefix : String) :
    TemporaryTable :=
  { kind := .session, createCommand, createOptions, namePrefix }

/-- A table that one connection sees is dropped once it is used. -/
def dropAfterUse (t : TemporaryTable) : Bool := t.kind == .connection

/-- The table for the ids of the rows of a table. -/
def idTable (t : TemporaryTable) (table : String) : String := t.namePrefix ++ "HT_" ++ table

/-- The table for whole rows of a table. -/
def entityTable (t : TemporaryTable) (table : String) : String := t.namePrefix ++ "HTE_" ++ table

def create (t : TemporaryTable) (name : String) (columns : List String) : String :=
  t.createCommand ++ " " ++ name ++ " (" ++ String.intercalate ", " columns ++ ")"
    ++ (t.createOptions.map (" " ++ ·)).getD ""

def drop (_ : TemporaryTable) (name : String) : String := "drop table " ++ name

end TemporaryTable

end SqlDialects
