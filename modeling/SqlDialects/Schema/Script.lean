import SqlDialects.Schema.Table

/-!
# The statements for a whole mapping model

To create a schema: sequences, tables, join tables, foreign keys, indexes. To drop it: foreign
keys, join tables, tables, sequences.
-/

namespace SqlDialects.Schema

open Mapping

/-! ## Sequences -/

def createSequence (d : Dialect) (name : String) (start increment : Int) :
    Except DialectError Statement :=
  if d.sequence.isSupported then .ok (.createSequence name start increment)
  else .error (d.lacks .sequences "sequences")

def dropSequence (d : Dialect) (name : String) : Except DialectError Statement :=
  if d.sequence.isSupported then .ok (.dropSequence name)
  else .error (d.lacks .sequences "sequences")

/-- The statements for the sequence of an entity, if it has one. -/
def sequenceCreation (d : Dialect) (entity : Entity) : Except DialectError (List Statement) :=
  match entity.idGeneration with
  | .sequence name start increment => return [← createSequence d name start increment]
  | _ => return []

def sequenceRemoval (d : Dialect) (entity : Entity) : Except DialectError (List Statement) :=
  match entity.idGeneration with
  | .sequence name _ _ => return [← dropSequence d name]
  | _ => return []

/-! ## Foreign keys and indexes -/

def ForeignKey.toEntity (table column : String) (target : Entity) : ForeignKey :=
  ⟨table, column, target.table, target.id.column⟩

def associationKey (model : Model) (entity : Entity) (association : ToOne) :
    Except DialectError ForeignKey := do
  return .toEntity entity.table association.column (← model.entity association.target)

/-- A collection without a table of its own has a key unless an association of its element has
the column. -/
def collectionKeys (model : Model) (entity : Entity) (collection : ToMany) :
    Except DialectError (List ForeignKey) := do
  let element ← model.entity collection.element
  match collection.storage with
  | .joinTable table ownerColumn elementColumn =>
    return [.toEntity table ownerColumn entity, .toEntity table elementColumn element]
  | .foreignKey column =>
    if element.declaresForeignKey column then return []
    else return [.toEntity element.table column entity]

def foreignKeys (d : Dialect) (model : Model) (entity : Entity) :
    Except DialectError (List Statement) := do
  if d.supports .foreignKeyConstraints then
    let associations ← entity.toOne.mapM (associationKey model entity)
    let collections ← entity.toMany.mapM (collectionKeys model entity)
    return (associations ++ collections.flatten).map .addForeignKey
  else return []

/-- Only the keys of associations are dropped, and only where keys outlive their tables. -/
def foreignKeyDrops (d : Dialect) (entity : Entity) : List Statement :=
  if d.rules.dropConstraints && d.supports .foreignKeyConstraints then
    entity.toOne.map fun a => .dropForeignKey entity.table a.column
  else []

def indexes (entity : Entity) : List Statement :=
  entity.toOne.map fun a => .createIndex entity.table a.column

/-! ## The whole schema -/

def joinTables (d : Dialect) (model : Model) (entity : Entity) :
    Except DialectError (List Statement) := do
  return (← entity.toMany.mapM (joinTable? d model entity)).flatMap Option.toList

def joinTableDrops (entity : Entity) : List Statement :=
  entity.toMany.filterMap fun collection =>
    match collection.storage with
    | .joinTable name _ _ => some (.dropTable name)
    | .foreignKey _ => none

def create (d : Dialect) (model : Model) : Except DialectError (List Statement) := do
  let sequences ← model.entities.mapM (sequenceCreation d)
  let tables ← model.entities.mapM (table d model)
  let joins ← model.entities.mapM (joinTables d model)
  let keys ← model.entities.mapM (foreignKeys d model)
  return sequences.flatten ++ tables ++ joins.flatten ++ keys.flatten ++
    model.entities.flatMap indexes

def drop (d : Dialect) (model : Model) : Except DialectError (List Statement) := do
  let sequences ← model.entities.mapM (sequenceRemoval d)
  return model.entities.flatMap (foreignKeyDrops d) ++ model.entities.flatMap joinTableDrops ++
    model.entities.map (fun entity => .dropTable entity.table) ++ sequences.flatten

end SqlDialects.Schema
