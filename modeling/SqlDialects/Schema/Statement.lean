import SqlDialects.Dialect.Basic

/-!
# Statements that make and drop a schema

A statement names its tables and columns as the mapping does. Quotes come with the text.
-/

namespace SqlDialects.Schema

inductive Column where
  | plain (name typeName : String) (isNullable isUnique : Bool)
  /-- The database gives the value, and the definition takes the place of the type. -/
  | generated (name definition : String)
  deriving DecidableEq, Repr

def Column.name : Column → String
  | plain name _ _ _ => name
  | generated name _ => name

/-- A column of a table that refers to a column of another one. -/
structure ForeignKey where
  table : String
  column : String
  targetTable : String
  targetColumn : String
  deriving DecidableEq, Repr

inductive Statement where
  | createSequence (name : String) (start increment : Int)
  /-- The key is empty where a column definition declares it. -/
  | createTable (name : String) (columns : List Column) (key : List String)
  | addForeignKey (key : ForeignKey)
  | createIndex (table column : String)
  | dropForeignKey (table column : String)
  | dropTable (name : String)
  | dropSequence (name : String)
  deriving DecidableEq, Repr

/-! ## Text -/

def foreignKeyName (table column : String) : String := "fk_" ++ table ++ "_" ++ column

def indexName (table column : String) : String := "idx_" ++ table ++ "_" ++ column

def Column.text (d : Dialect) (isQuoted : Bool) : Column → String
  | plain name typeName isNullable isUnique =>
    d.identifier isQuoted name ++ " " ++ typeName ++
      (if isNullable then d.rules.nullColumn else " not null") ++
      (if isUnique then " unique" else "")
  | generated name definition => d.identifier isQuoted name ++ " " ++ definition

namespace Statement

/-- The clause for a primary key of at least one column. -/
def keyTexts (d : Dialect) (isQuoted : Bool) : List String → List String
  | [] => []
  | key => ["primary key (" ++ String.intercalate ", " (key.map (d.identifier isQuoted)) ++ ")"]

def dropForeignKeyWords : Product → String
  | .mySql => "drop foreign key"
  | _ => "drop constraint"

/-- The words stand in front of the name or behind it, or there is no such check. -/
def dropTableText (d : Dialect) (name : String) : String :=
  if d.supports .ifExistsBeforeTableName then "drop table if exists " ++ name
  else if d.supports .ifExistsAfterTableName then "drop table " ++ name ++ " if exists"
  else "drop table " ++ name

/-- Constraint and sequence names are never quoted. -/
def text (d : Dialect) (isQuoted : Bool) : Statement → String
  | createSequence name start increment => SequenceSupport.creation name start increment
  | createTable name columns key =>
    "create table " ++ d.identifier isQuoted name ++ " (" ++
      String.intercalate ", " (columns.map (Column.text d isQuoted) ++ keyTexts d isQuoted key) ++
      ")"
  | addForeignKey key =>
    "alter table " ++ d.identifier isQuoted key.table ++ " add constraint " ++
      foreignKeyName key.table key.column ++ " foreign key (" ++
      d.identifier isQuoted key.column ++ ") references " ++
      d.identifier isQuoted key.targetTable ++ " (" ++ d.identifier isQuoted key.targetColumn ++
      ")"
  | createIndex table column =>
    "create index " ++ d.identifier isQuoted (indexName table column) ++ " on " ++
      d.identifier isQuoted table ++ " (" ++ d.identifier isQuoted column ++ ")"
  | dropForeignKey table column =>
    "alter table " ++ d.identifier isQuoted table ++ " " ++ dropForeignKeyWords d.product ++ " " ++
      foreignKeyName table column
  | dropTable name => dropTableText d (d.identifier isQuoted name)
  | dropSequence name => SequenceSupport.removal name

end Statement

end SqlDialects.Schema
