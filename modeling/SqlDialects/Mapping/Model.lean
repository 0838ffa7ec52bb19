import SqlDialects.Error
import SqlDialects.SortedMap
import SqlDialects.Text.Case

/-!
# Mapping models

Which table an entity is stored in, and which column each of its properties. Entities are found
without regard to letter case, properties without regard to the case of `A` to `Z`.
-/

namespace SqlDialects.Mapping

/-! ## Properties -/

/-- A property with one column of its own. -/
structure Attribute where
  name : String
  column : String
  sqlType : SqlType
  length : Option Nat := none
  precision : Option Nat := none
  scale : Option Nat := none
  isNullable : Bool := true
  isUnique : Bool := false
  deriving DecidableEq, Repr

/-- A reference to another entity by a foreign key. -/
structure ToOne where
  name : String
  target : String
  column : String
  isOptional : Bool := true
  deriving DecidableEq, Repr

/-- Where the members of a collection are kept. -/
inductive CollectionStorage where
  /-- A column of the element's table refers to the owner. -/
  | foreignKey (column : String)
  /-- Each row of a table of its own refers to an owner and an element. -/
  | joinTable (table ownerColumn elementColumn : String)
  deriving DecidableEq, Repr

structure ToMany where
  name : String
  element : String
  storage : CollectionStorage
  deriving DecidableEq, Repr

inductive Property where
  | basic (value : Attribute)
  | toOne (association : ToOne)
  | toMany (collection : ToMany)
  deriving DecidableEq, Repr

namespace Attribute

/-- The column is named like the attribute, in snake case. -/
def ofType (name : String) (sqlType : SqlType) : Attribute :=
  { name, column := Text.snakeCase name, sqlType }

def notNull (a : Attribute) : Attribute := { a with isNullable := false }

/-- A column of the same type under another name. -/
def withColumn (a : Attribute) (column : String) : Attribute := { a with column }

end Attribute

/-- The foreign key column is named like the association. -/
def ToOne.ofTarget (name target : String) : ToOne :=
  { name, target, column := Text.snakeCase name ++ "_id" }

/-! ## Entities -/

inductive IdGeneration where
  | assigned
  | identity
  | sequence (name : String) (start increment : Int)
  deriving DecidableEq, Repr

structure Entity where
  name : String
  table : String
  id : Attribute
  idGeneration : IdGeneration := .assigned
  /-- Without the id. -/
  attributes : List Attribute := []
  toOne : List ToOne := []
  toMany : List ToMany := []
  deriving DecidableEq, Repr

namespace Entity

/-- The usual table name and id. -/
def ofName (name : String) : Entity :=
  { name, table := Text.snakeCase name, id := (Attribute.ofType "id" .bigInt).notNull }

/-- The id comes before the attributes, then the associations, then the collections. -/
def property? (entity : Entity) (name : String) : Option Property :=
  if Text.sameName entity.id.name name then some (.basic entity.id)
  else
    match entity.attributes.find? fun a => Text.sameName a.name name with
    | some a => some (.basic a)
    | none =>
      match entity.toOne.find? fun a => Text.sameName a.name name with
      | some a => some (.toOne a)
      | none => (entity.toMany.find? fun a => Text.sameName a.name name).map .toMany

def property (entity : Entity) (name : String) : Except DialectError Property :=
  match entity.property? name with
  | some p => .ok p
  | none => .error (.unknownAttribute entity.name name)

/-- An association of the entity already has the column for its foreign key. -/
def declaresForeignKey (entity : Entity) (column : String) : Bool :=
  entity.toOne.any fun a => Text.sameName a.column column

end Entity

/-! ## Models -/

/-- Entities by their name in small letters. -/
structure Model where
  byName : SortedMap String Entity := {}

namespace Model

def add (model : Model) (entity : Entity) : Model :=
  ⟨model.byName.insert (Text.lower entity.name) entity⟩

def ofList (entities : List Entity) : Model := entities.foldl add {}

def entities (model : Model) : List Entity := model.byName.values

def entity? (model : Model) (name : String) : Option Entity :=
  model.byName.get? (Text.lower name)

def contains (model : Model) (name : String) : Bool := (model.entity? name).isSome

def entity (model : Model) (name : String) : Except DialectError Entity :=
  match model.entity? name with
  | some e => .ok e
  | none => .error (.unknownEntity name)

end Model

end SqlDialects.Mapping
