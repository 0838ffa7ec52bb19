import SqlDialects.Entity.Lowering.Scope

/-! # Walking along paths -/

namespace SqlDialects.Entity

/-- Where a walk along a path has come to. -/
structure Place where
  /-- Of the scope that binds the path's variable. -/
  depth : Nat
  item : Nat
  entity : Mapping.Entity
  aliasName : String

namespace Place

def column (place : Place) (name : String) : Sql.Expression := .of place.aliasName name

def id (place : Place) : Sql.Expression := place.column place.entity.id.column

end Place

/-- A join of a table where one of its columns equals an expression. -/
def equiJoin (kind : JoinKind) (table aliasName column : String) (other : Sql.Expression) :
    Sql.Join :=
  { kind, table := ⟨table, aliasName⟩, on := some (.equal (.of aliasName column) other) }

/-- Joins the target of an association. A path that has come the same way before has left a join
that is used again. -/
def joinAlong (c : LoweringContext) (place : Place) (association : Mapping.ToOne)
    (target : Mapping.Entity) : Lower String := do
  let scopes := (← get).scopes
  match scopes[place.depth]? with
  | none => c.unsupported "implicit join in update or delete"
  | some scope =>
    if !scope.allowsPathJoins then c.unsupported "implicit join in update or delete"
    else
      let key := (place.aliasName, Text.lower association.name)
      match scope.pathJoins.lookup key with
      | some aliasName => return aliasName
      | none => do
        let aliasName ← Lower.freshAlias
        let join := equiJoin .inner target.table aliasName target.id.column
          (place.column association.column)
        Lower.addJoins place.depth place.item [join] "implicit join outside of a table group"
        Lower.modifyScope place.depth fun s =>
          { s with pathJoins := (key, aliasName) :: s.pathJoins }
        return aliasName

/-- Only an association leads on to another entity. -/
def step (c : LoweringContext) (path : Path) (place : Place) (name : String) : Lower Place := do
  match ← Lower.property place.entity name with
  | .toOne association => do
    let target ← c.entity association.target
    let aliasName ← joinAlong c place association target
    return { place with entity := target, aliasName }
  | .basic _ => Lower.malformed (path.text ++ " dereferences basic attribute " ++ name)
  | .toMany _ => c.unsupported ("implicit join over collection in " ++ path.text)

def walk (c : LoweringContext) (path : Path) (place : Place) : List String → Lower Place
  | [] => return place
  | name :: rest => do
    let next ← step c path place name
    walk c path next rest

/-- Walks along the first so many names of a path. -/
def navigate (c : LoweringContext) (path : Path) (steps : Nat) : Lower Place := do
  let (depth, binding) ← Lower.lookup path.start
  walk c path ⟨depth, binding.item, binding.entity, binding.aliasName⟩ (path.properties.take steps)

/-! ## Values -/

/-- The foreign key at the last but one name, if the last name is the id that it refers to. -/
def foreignKey? (c : LoweringContext) (path : Path) (owner name : String) (steps : Nat) :
    Lower (Option Sql.Expression) := do
  let place ← navigate c path steps
  match ← Lower.property place.entity owner with
  | .toOne association => do
    let target ← c.entity association.target
    if Text.sameName target.id.name name then return some (place.column association.column)
    else return none
  | _ => return none

/-- The column of a property. -/
def propertyColumn (c : LoweringContext) (path : Path) (name : String) (steps : Nat) :
    Lower Sql.Expression := do
  let place ← navigate c path steps
  match ← Lower.property place.entity name with
  | .basic a => return place.column a.column
  | .toOne association => return place.column association.column
  | .toMany _ => c.unsupported ("collection-valued path " ++ path.text)

/-- The column at the end of a path. A bare variable stands for the id of its entity. -/
def resolve (c : LoweringContext) (path : Path) : Lower Sql.Expression := do
  match path.properties.reverse with
  | [] => return (← navigate c path 0).id
  | [name] => propertyColumn c path name 0
  | name :: owner :: rest => do
    match ← foreignKey? c path owner name rest.length with
    | some column => return column
    | none => propertyColumn c path name (rest.length + 1)

/-- The columns that are selected for a bare variable. -/
def entityColumns (c : LoweringContext) (path : Path) : Lower (List Sql.Expression) := do
  let place ← navigate c path 0
  return place.id :: (place.entity.attributes.map fun a => place.column a.column) ++
    (place.entity.toOne.map fun a => place.column a.column)

/-! ## Joins -/

/-- The joins to the other end of a property, with the entity and the alias they lead to. -/
def joinsTo (c : LoweringContext) (join : PathJoin) (place : Place) :
    Mapping.Property → Lower (Mapping.Entity × String × List Sql.Join)
  | .basic _ => Lower.malformed ("join over basic attribute " ++ join.path.text)
  | .toOne association => do
    let target ← c.entity association.target
    let aliasName ← Lower.freshAlias
    let key := place.column association.column
    return (target, aliasName, [equiJoin join.kind target.table aliasName target.id.column key])
  | .toMany collection => do
    let element ← c.entity collection.element
    match collection.storage with
    | .foreignKey column => do
      let aliasName ← Lower.freshAlias
      return (element, aliasName, [equiJoin join.kind element.table aliasName column place.id])
    | .joinTable table ownerColumn elementColumn => do
      let link ← Lower.freshAlias
      let aliasName ← Lower.freshAlias
      return (element, aliasName,
        [equiJoin join.kind table link ownerColumn place.id,
          equiJoin join.kind element.table aliasName element.id.column (.of link elementColumn)])

/-- A join that the query asks for, over one property of a variable. It hangs on the table of the
innermost query that has the number of the variable's table. -/
def lowerJoin (c : LoweringContext) (join : PathJoin) : Lower Unit := do
  match join.path.properties with
  | [name] => do
    let place ← navigate c join.path 0
    let (entity, aliasName, joins) ← joinsTo c join place (← Lower.property place.entity name)
    Lower.addJoins 0 place.item joins "join target outside of the current query"
    Lower.bind join.aliasName ⟨entity, aliasName, place.item⟩
  | _ => Lower.malformed ("join path " ++ join.path.text ++ " must name one attribute")

def lowerJoins (c : LoweringContext) : List PathJoin → Lower Unit
  | [] => return
  | join :: rest => do
    lowerJoin c join
    lowerJoins c rest

/-- The roots of a query, counted from `item`. -/
def lowerRoots (c : LoweringContext) (item : Nat) : List Root → Lower Unit
  | [] => return
  | root :: rest => do
    let entity ← c.entity root.entity
    let aliasName ← Lower.freshAlias
    Lower.addTable { root := ⟨entity.table, aliasName⟩ }
    Lower.bind root.aliasName ⟨entity, aliasName, item⟩
    lowerJoins c root.joins
    lowerRoots c (item + 1) rest

/-! ## Sizes of collections -/

/-- The table that holds a row for each member, its column for the owner and one for the member. -/
def memberTable (collection : Mapping.ToMany) (element : Mapping.Entity) :
    String × String × String :=
  match collection.storage with
  | .foreignKey column => (element.table, column, element.id.column)
  | .joinTable table ownerColumn elementColumn => (table, ownerColumn, elementColumn)

/-- Counts the members in a subquery of their own. -/
def countQuery (table aliasName ownerColumn : String) (owner : Sql.Expression) : Sql.Expression :=
  .subquery (.spec
    { select := [{ expression := .aggregate .count false none }]
      tables := [{ root := ⟨table, aliasName⟩ }]
      condition := some (.equal (.of aliasName ownerColumn) owner) })

/-- Counts the members by a left join, where the select list cannot hold a subquery. The query is
grouped by the owners later. -/
def countJoined (c : LoweringContext) (place : Place) (table ownerColumn memberColumn : String) :
    Lower Sql.Expression := do
  if (← Lower.current).isGrouped then
    c.lacks .subqueryInSelect "size() in the select list of a grouped query"
  else if place.depth ≠ 0 then
    c.lacks .subqueryInSelect "size() of an outer query's collection in a subquery select list"
  else do
    let aliasName ← Lower.freshAlias
    Lower.addJoins 0 place.item [equiJoin .left table aliasName ownerColumn place.id]
      "size() outside of a table group"
    let owner := (place.aliasName, place.entity.id.column)
    Lower.modifyScope 0 fun scope =>
      { scope with
        countedCollections := scope.countedCollections + 1
        owners := if scope.owners.contains owner then scope.owners else scope.owners ++ [owner] }
    return .aggregate .count true (some (.of aliasName memberColumn))

def lowerSize (c : LoweringContext) (path : Path) : Lower Sql.Expression := do
  match path.properties.getLast? with
  | none => Lower.malformed ("size(" ++ path.text ++ ") without a collection")
  | some name => do
    let place ← navigate c path (path.properties.length - 1)
    match ← Lower.property place.entity name with
    | .toMany collection => do
      let element ← c.entity collection.element
      let (table, ownerColumn, memberColumn) := memberTable collection element
      if c.isInSelect && !c.dialect.supports .subqueryInSelect then
        countJoined c place table ownerColumn memberColumn
      else do
        let aliasName ← Lower.freshAlias
        return countQuery table aliasName ownerColumn place.id
    | _ => Lower.malformed ("size(" ++ path.text ++ ") over a non-collection")

end SqlDialects.Entity
