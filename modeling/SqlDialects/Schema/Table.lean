import SqlDialects.Mapping.Model
import SqlDialects.Schema.Statement

/-! # Tables for entities and collections -/

namespace SqlDialects.Schema

open Mapping

/-! ## Columns -/

def typeName (d : Dialect) (a : Attribute) : Except DialectError String :=
  d.columnType a.sqlType a.length a.precision a.scale

def Column.ofAttribute (d : Dialect) (a : Attribute) : Except DialectError Column := do
  return .plain a.column (← typeName d a) a.isNullable a.isUnique

def identityColumn (d : Dialect) (id : Attribute) : Except DialectError Column := do
  let typeName ← typeName d id
  match d.identity.definition? typeName (id.sqlType == .bigInt) with
  | some definition => return .generated id.column definition
  | none => .error (d.lacks .identityColumns "identity columns")

def idColumn (d : Dialect) (entity : Entity) : Except DialectError Column :=
  match entity.idGeneration with
  | .identity => identityColumn d entity.id
  | _ => Column.ofAttribute d entity.id

/-- An association keeps the id of its target under a column of its own. -/
def associationColumn (d : Dialect) (model : Model) (association : ToOne) :
    Except DialectError Column := do
  let target ← model.entity association.target
  let key := target.id.withColumn association.column
  Column.ofAttribute d { key with isNullable := association.isOptional, isUnique := false }

/-- The column by which the elements of a collection refer to their owner, if it belongs to the
table of the entity and no association has it. -/
def ownerKey? (entity owner : Entity) (collection : ToMany) : Option Attribute :=
  match collection.storage with
  | .foreignKey column =>
    if Text.sameName collection.element entity.name && !entity.declaresForeignKey column then
      some { owner.id.withColumn column with isNullable := true }
    else none
  | .joinTable _ _ _ => none

def ownerKeys (model : Model) (entity : Entity) : List Attribute :=
  model.entities.flatMap fun owner => owner.toMany.filterMap (ownerKey? entity owner)

/-! ## Tables -/

/-- The key is left out where the id column declares it. -/
def primaryKey (d : Dialect) (entity : Entity) : List String :=
  if entity.idGeneration == .identity && d.identity.includesPrimaryKey then []
  else [entity.id.column]

def table (d : Dialect) (model : Model) (entity : Entity) : Except DialectError Statement := do
  let id ← idColumn d entity
  let attributes ← entity.attributes.mapM (Column.ofAttribute d)
  let associations ← entity.toOne.mapM (associationColumn d model)
  let owners ← (ownerKeys model entity).mapM (Column.ofAttribute d)
  return .createTable entity.table (id :: attributes ++ associations ++ owners)
    (primaryKey d entity)

/-- The table of a collection that has one, with a row for each owner and element. -/
def joinTable? (d : Dialect) (model : Model) (owner : Entity) (collection : ToMany) :
    Except DialectError (Option Statement) := do
  match collection.storage with
  | .foreignKey _ => return none
  | .joinTable name ownerColumn elementColumn =>
    let element ← model.entity collection.element
    let ownerKey ← Column.ofAttribute d (owner.id.withColumn ownerColumn).notNull
    let elementKey ← Column.ofAttribute d (element.id.withColumn elementColumn).notNull
    return some (.createTable name [ownerKey, elementKey] [ownerColumn, elementColumn])

/-- The texts that create and drop the temporary table for the ids of an entity. -/
def temporaryIdTable (d : Dialect) (isQuoted : Bool) (entity : Entity) :
    Except DialectError (String × String) := do
  let id ← Column.ofAttribute d entity.id.notNull
  let name := d.temporaryTable.idTable entity.table
  return (d.temporaryTable.create name [id.text d isQuoted], d.temporaryTable.drop name)

end SqlDialects.Schema
