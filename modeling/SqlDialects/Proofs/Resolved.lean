import Mathlib.Data.List.Forall2
import SqlDialects.Entity.Lowering.Navigation
import SqlDialects.Proofs.Scoped

/-!
# What attribute paths become

A statement over tables can be held against the statement over entities that it has been made from:
the trees have the same form, and each path of the one stands in the other as the column that it
leads to. For that, the joins of the path have to hang on the table of its variable.
-/

namespace SqlDialects

/-! ## Models -/

def Text.isAsciiText (s : String) : Bool := s.toList.all isAscii

/-- The column that a property has in the table of its entity. -/
def Mapping.Property.column? : Mapping.Property → Option String
  | .basic a => some a.column
  | .toOne association => some association.column
  | .toMany _ => none

/-- All columns in the table of an entity. -/
def Mapping.Entity.columns (entity : Mapping.Entity) : List String :=
  entity.id.column :: entity.attributes.map (·.column) ++ entity.toOne.map (·.column)

/-- The names of an entity and of its properties. -/
def Mapping.Entity.names (entity : Entity) : List String :=
  entity.name :: entity.id.name :: entity.attributes.map (·.name) ++ entity.toOne.map (·.name) ++
    entity.toMany.map (·.name)

def Mapping.Model.HasAsciiNames (model : Model) : Prop :=
  ∀ entity ∈ model.entities, ∀ name ∈ entity.names, Text.isAsciiText name = true

namespace Entity

/-! ## Ways, variables and tables -/

/-- A table that paths have joined: from an alias, along an association, under its own alias. -/
structure Way where
  start : String
  association : Mapping.ToOne
  aliasName : String

/-- Two of the ways lead to one alias exactly if they start at one alias and go along one
association. -/
def Shared (ways : Way → Prop) : Prop :=
  ∀ v w, ways v → ways w →
    (v.aliasName = w.aliasName ↔ v.start = w.start ∧ v.association = w.association)

/-- The variables of a query, the latest first, and its tables. -/
structure OpenQuery where
  bindings : List (String × Binding) := []
  tables : List Sql.FromItem := []

/-- The innermost query that has a variable, and what the variable stands for there. -/
def innermost (name : String) : List OpenQuery → Option (OpenQuery × Binding)
  | [] => none
  | query :: outer =>
    match query.bindings.lookup name with
    | some binding => some (query, binding)
    | none => innermost name outer

/-- More joins hang on a table. -/
def Widens (group group' : Sql.FromItem) : Prop :=
  group.root = group'.root ∧ group.joins <+: group'.joins

/-- What a path is read by. -/
structure Setting where
  model : Mapping.Model
  /-- The joins that the paths of the statement have added. -/
  ways : Way → Prop
  /-- The queries around, the innermost first. -/
  queries : List OpenQuery := []

namespace Setting

variable (σ : Setting)

/-- Inside of one more query. -/
def inside (bindings : List (String × Binding)) (tables : List Sql.FromItem) : Setting :=
  { σ with queries := ⟨bindings, tables⟩ :: σ.queries }

/-! ## Columns of paths -/

/-- Each name leads along an association, over an inner join of the id with the foreign key. -/
def Chain (group : Sql.FromItem) :
    Mapping.Entity → String → List String → Mapping.Entity → String → Prop
  | entity, aliasName, [], entity', aliasName' => entity = entity' ∧ aliasName = aliasName'
  | entity, aliasName, name :: rest, entity', aliasName' => ∃ association target next,
    entity.property name = .ok (.toOne association) ∧
    σ.model.entity association.target = .ok target ∧ σ.ways ⟨aliasName, association, next⟩ ∧
    equiJoin .inner target.table next target.id.column (.of aliasName association.column) ∈
      group.joins ∧
    Chain group target next rest entity' aliasName'

/-- The names lead from the innermost variable to an entity under an alias. The joins on the way
hang on the table that the alias of the variable belongs to. -/
def Reaches (variableName : String) (names : List String) (group : Sql.FromItem)
    (entity : Mapping.Entity) (aliasName : String) : Prop :=
  ∃ query binding, innermost variableName σ.queries = some (query, binding) ∧
    query.tables[binding.item]? = some group ∧ binding.aliasName ∈ group.names ∧
    σ.Chain group binding.entity binding.aliasName names entity aliasName

/-- The column of a path: the id of a bare variable, the foreign key in front of the id that it
refers to, or the column of the last property. -/
inductive PathColumn (variableName : String) : List String → Sql.Expression → Prop
  | id {group : Sql.FromItem} {entity : Mapping.Entity} {aliasName : String}
      (h : σ.Reaches variableName [] group entity aliasName) :
    PathColumn variableName [] (.of aliasName entity.id.column)
  | foreignKey {names : List String} {owner last : String} {group : Sql.FromItem}
      {entity target : Mapping.Entity} {aliasName : String} {association : Mapping.ToOne}
      (h : σ.Reaches variableName names group entity aliasName)
      (ho : entity.property owner = .ok (.toOne association))
      (ht : σ.model.entity association.target = .ok target)
      (hl : Text.sameName target.id.name last = true) :
    PathColumn variableName (names ++ [owner, last]) (.of aliasName association.column)
  | property {names : List String} {last column : String} {group : Sql.FromItem}
      {entity : Mapping.Entity} {aliasName : String} {property : Mapping.Property}
      (h : σ.Reaches variableName names group entity aliasName)
      (hl : names = [] ∨ Text.sameName entity.id.name last = false)
      (hp : entity.property last = .ok property) (hc : property.column? = some column) :
    PathColumn variableName (names ++ [last]) (.of aliasName column)

/-- The size of a collection: counted in a query of its own, or by a join beside the owner. -/
inductive PathSize (variableName : String) : List String → Sql.Expression → Prop
  | queried {names : List String} {last counted : String} {group : Sql.FromItem}
      {entity element : Mapping.Entity} {aliasName : String} {collection : Mapping.ToMany}
      (h : σ.Reaches variableName names group entity aliasName)
      (hp : entity.property last = .ok (.toMany collection))
      (he : σ.model.entity collection.element = .ok element) :
    PathSize variableName (names ++ [last]) (countQuery (memberTable collection element).1 counted
      (memberTable collection element).2.1 (.of aliasName entity.id.column))
  | joined {names : List String} {last counted : String} {group : Sql.FromItem}
      {entity element : Mapping.Entity} {aliasName : String} {collection : Mapping.ToMany}
      (h : σ.Reaches variableName names group entity aliasName)
      (hp : entity.property last = .ok (.toMany collection))
      (he : σ.model.entity collection.element = .ok element)
      (hj : equiJoin .left (memberTable collection element).1 counted
        (memberTable collection element).2.1 (.of aliasName entity.id.column) ∈ group.joins) :
    PathSize variableName (names ++ [last])
      (.aggregate .count true (some (.of counted (memberTable collection element).2.2)))

/-! ## Variables of queries -/

/-- The joins from an alias of an entity to the other end of one of its properties. -/
inductive JoinsOver (kind : JoinKind) (entity : Mapping.Entity) (aliasName : String) :
    Mapping.Property → Mapping.Entity → String → List Sql.Join → Prop
  | toOne {association : Mapping.ToOne} {target : Mapping.Entity} {next : String}
      (ht : σ.model.entity association.target = .ok target) :
    JoinsOver kind entity aliasName (.toOne association) target next
      [equiJoin kind target.table next target.id.column (.of aliasName association.column)]
  | foreignKey {collection : Mapping.ToMany} {element : Mapping.Entity} {column next : String}
      (he : σ.model.entity collection.element = .ok element)
      (hs : collection.storage = .foreignKey column) :
    JoinsOver kind entity aliasName (.toMany collection) element next
      [equiJoin kind element.table next column (.of aliasName entity.id.column)]
  | joinTable {collection : Mapping.ToMany} {element : Mapping.Entity}
      {table ownerColumn elementColumn link next : String}
      (he : σ.model.entity collection.element = .ok element)
      (hs : collection.storage = .joinTable table ownerColumn elementColumn) :
    JoinsOver kind entity aliasName (.toMany collection) element next
      [equiJoin kind table link ownerColumn (.of aliasName entity.id.column),
        equiJoin kind element.table next element.id.column (.of link elementColumn)]

/-- A join binds one more variable. Its tables hang on the table of the query that has the number
of its start's. -/
def OpensJoin (query : OpenQuery) (join : PathJoin) (opened : OpenQuery) : Prop :=
  ∃ name found binding property entity aliasName joins,
    join.path.properties = [name] ∧
    innermost join.path.start (query :: σ.queries) = some (found, binding) ∧
    binding.entity.property name = .ok property ∧
    σ.JoinsOver join.kind binding.entity binding.aliasName property entity aliasName joins ∧
    opened =
      ⟨(join.aliasName, ⟨entity, aliasName, binding.item⟩) :: query.bindings,
        query.tables.modify binding.item fun group => { group with joins := group.joins ++ joins }⟩

def OpensJoins (query : OpenQuery) : List PathJoin → OpenQuery → Prop
  | [], opened => opened = query
  | join :: rest, opened => ∃ next, σ.OpensJoin query join next ∧ OpensJoins next rest opened

/-- Each root binds a variable to a table of its own. -/
def OpensRoots (query : OpenQuery) : List Root → OpenQuery → Prop
  | [], opened => opened = query
  | root :: rest, opened => ∃ entity aliasName next,
    σ.model.entity root.entity = .ok entity ∧
    σ.OpensJoins
      ⟨(root.aliasName, ⟨entity, aliasName, query.tables.length⟩) :: query.bindings,
        query.tables ++ [{ root := ⟨entity.table, aliasName⟩ }]⟩ root.joins next ∧
    OpensRoots next rest opened

end Setting

/-! ## Trees -/

mutual

def Expression.Becomes (σ : Setting) : Expression → Sql.Expression → Prop
  | .path path, r => σ.PathColumn path.start path.properties r
  | .literal value, r => r = .literal value
  | .parameter parameter, r => r = .parameter parameter
  | .call name arguments, r =>
    ∃ arguments', r = .call name arguments' ∧ Expression.AllBecome σ arguments arguments'
  | .aggregate function isDistinct argument, r =>
    ∃ argument', r = .aggregate function isDistinct argument' ∧
      Expression.OptionBecomes σ argument argument'
  | .extract unit source, r => ∃ source', r = .extract unit source' ∧ source.Becomes σ source'
  | .timestampAdd unit magnitude timestamp, r =>
    ∃ magnitude' timestamp', r = .timestampAdd unit magnitude' timestamp' ∧
      magnitude.Becomes σ magnitude' ∧ timestamp.Becomes σ timestamp'
  | .timestampDiff unit start finish, r =>
    ∃ start' finish', r = .timestampDiff unit start' finish' ∧
      start.Becomes σ start' ∧ finish.Becomes σ finish'
  | .format source pattern, r =>
    ∃ source', r = .format source' pattern ∧ source.Becomes σ source'
  | .binary left operator right, r =>
    ∃ left' right', r = .binary left' operator right' ∧ left.Becomes σ left' ∧
      right.Becomes σ right'
  | .negate operand, r => ∃ operand', r = .negate operand' ∧ operand.Becomes σ operand'
  | .case branches otherwise, r =>
    ∃ branches' otherwise', r = .case branches' otherwise' ∧
      CaseBranch.AllBecome σ branches branches' ∧ Expression.OptionBecomes σ otherwise otherwise'
  | .cast source target, r => ∃ source', r = .cast source' target ∧ source.Becomes σ source'
  | .subquery query, r => ∃ query', r = .subquery query' ∧ query.Becomes σ query'
  | .tuple items, r => ∃ items', r = .tuple items' ∧ Expression.AllBecome σ items items'
  | .size path, r => σ.PathSize path.start path.properties r

def Expression.AllBecome (σ : Setting) : List Expression → List Sql.Expression → Prop
  | [], rs => rs = []
  | e :: rest, rs =>
    ∃ r rest', rs = r :: rest' ∧ e.Becomes σ r ∧ Expression.AllBecome σ rest rest'

def Expression.OptionBecomes (σ : Setting) : Option Expression → Option Sql.Expression → Prop
  | none, r => r = none
  | some e, r => ∃ r', r = some r' ∧ e.Becomes σ r'

def CaseBranch.AllBecome (σ : Setting) : List (CaseBranch Condition Expression) →
    List (CaseBranch Sql.Condition Sql.Expression) → Prop
  | [], rs => rs = []
  | ⟨condition, result⟩ :: rest, rs =>
    ∃ condition' result' rest', rs = ⟨condition', result'⟩ :: rest' ∧
      condition.Becomes σ condition' ∧ result.Becomes σ result' ∧
      CaseBranch.AllBecome σ rest rest'

def Condition.Becomes (σ : Setting) : Condition → Sql.Condition → Prop
  | .compare left operator right, r =>
    ∃ left' right', r = .compare left' operator right' ∧ left.Becomes σ left' ∧
      right.Becomes σ right'
  | .all items, r => ∃ items', r = .all items' ∧ Condition.AllBecome σ items items'
  | .any items, r => ∃ items', r = .any items' ∧ Condition.AllBecome σ items items'
  | .not operand, r => ∃ operand', r = .not operand' ∧ operand.Becomes σ operand'
  | .isNull operand isNegated, r =>
    ∃ operand', r = .isNull operand' isNegated ∧ operand.Becomes σ operand'
  | .inList operand items isNegated, r =>
    ∃ operand' items', r = .inList operand' items' isNegated ∧ operand.Becomes σ operand' ∧
      Expression.AllBecome σ items items'
  | .inQuery operand query isNegated, r =>
    ∃ operand' query', r = .inQuery operand' query' isNegated ∧ operand.Becomes σ operand' ∧
      query.Becomes σ query'
  | .exists query isNegated, r => ∃ query', r = .exists query' isNegated ∧ query.Becomes σ query'
  | .like operand pattern escape ignoresCase isNegated, r =>
    ∃ operand' pattern', r = .like operand' pattern' escape ignoresCase isNegated ∧
      operand.Becomes σ operand' ∧ pattern.Becomes σ pattern'
  | .between operand low high isNegated, r =>
    ∃ operand' low' high', r = .between operand' low' high' isNegated ∧
      operand.Becomes σ operand' ∧ low.Becomes σ low' ∧ high.Becomes σ high'
  | .holds operand, r => ∃ operand', r = .holds operand' ∧ operand.Becomes σ operand'

def Condition.AllBecome (σ : Setting) : List Condition → List Sql.Condition → Prop
  | [], rs => rs = []
  | p :: rest, rs => ∃ r rest', rs = r :: rest' ∧ p.Becomes σ r ∧ Condition.AllBecome σ rest rest'

def Condition.OptionBecomes (σ : Setting) : Option Condition → Option Sql.Condition → Prop
  | none, r => r = none
  | some p, r => ∃ r', r = some r' ∧ p.Becomes σ r'

def Query.Becomes (σ : Setting) : Query → Sql.Query → Prop
  | .spec spec, r => ∃ spec', r = .spec spec' ∧ spec.Becomes σ spec'
  | .group operator parts orderBy limit offset, r =>
    ∃ parts' orderBy' limit' offset', r = .group operator parts' orderBy' limit' offset' ∧
      Query.AllBecome σ parts parts' ∧ SortKey.AllBecome σ orderBy orderBy' ∧
      Expression.OptionBecomes σ limit limit' ∧ Expression.OptionBecomes σ offset offset'

def Query.AllBecome (σ : Setting) : List Query → List Sql.Query → Prop
  | [], rs => rs = []
  | q :: rest, rs => ∃ r rest', rs = r :: rest' ∧ q.Becomes σ r ∧ Query.AllBecome σ rest rest'

/-- The tables are those of the roots and joins, with the joins of paths behind. A query that has
no groups of its own can get keys that count collections. -/
def QuerySpec.Becomes (σ : Setting) : QuerySpec → Sql.QuerySpec → Prop
  | ⟨isDistinct, select, roots, condition, groupBy, having, orderBy, limit, offset⟩, r =>
    ∃ opened : OpenQuery, σ.OpensRoots {} roots opened ∧
      List.Forall₂ Widens opened.tables r.tables ∧ r.isDistinct = isDistinct ∧
      SelectItem.AllBecome (σ.inside opened.bindings r.tables) select r.select ∧
      Condition.OptionBecomes (σ.inside opened.bindings r.tables) condition r.condition ∧
      (groupBy = [] ∨
        Expression.AllBecome (σ.inside opened.bindings r.tables) groupBy r.groupBy) ∧
      Condition.OptionBecomes (σ.inside opened.bindings r.tables) having r.having ∧
      SortKey.AllBecome (σ.inside opened.bindings r.tables) orderBy r.orderBy ∧
      Expression.OptionBecomes (σ.inside opened.bindings r.tables) limit r.limit ∧
      Expression.OptionBecomes (σ.inside opened.bindings r.tables) offset r.offset

/-- A bare variable becomes all columns of its entity. -/
def SelectItem.AllBecome (σ : Setting) : List (SelectItem Expression) →
    List (SelectItem Sql.Expression) → Prop
  | [], rs => rs = []
  | ⟨.path ⟨variableName, []⟩, _⟩ :: rest, rs =>
    ∃ group entity aliasName rest', σ.Reaches variableName [] group entity aliasName ∧
      rs = entity.columns.map (fun column => ⟨.of aliasName column, none⟩) ++ rest' ∧
      SelectItem.AllBecome σ rest rest'
  | ⟨e, aliasName⟩ :: rest, rs =>
    ∃ r rest', rs = ⟨r, aliasName⟩ :: rest' ∧ e.Becomes σ r ∧ SelectItem.AllBecome σ rest rest'

def SortKey.AllBecome (σ : Setting) : List (SortKey Expression) →
    List (SortKey Sql.Expression) → Prop
  | [], rs => rs = []
  | ⟨e, isDescending, nulls⟩ :: rest, rs =>
    ∃ r rest', rs = ⟨r, isDescending, nulls⟩ :: rest' ∧ e.Becomes σ r ∧
      SortKey.AllBecome σ rest rest'

end

/-! ## Statements -/

def Assignment.AllBecome (σ : Setting) (entity : Mapping.Entity) :
    List Assignment → List Sql.Assignment → Prop
  | [], rs => rs = []
  | a :: rest, rs => ∃ property column r rest', entity.property a.property = .ok property ∧
    property.column? = some column ∧ rs = ⟨column, r⟩ :: rest' ∧ a.value.Becomes σ r ∧
    Assignment.AllBecome σ entity rest rest'

/-- The target of a change is the only table that its variable stands for. -/
def Setting.ofTarget (model : Mapping.Model) (ways : Way → Prop) (variableName : String)
    (entity : Mapping.Entity) (target : TableReference) : Setting :=
  { model, ways,
    queries := [⟨[(variableName, ⟨entity, target.aliasName, 0⟩)], [{ root := target }]⟩] }

def Statement.Becomes (model : Mapping.Model) (ways : Way → Prop) :
    Statement → Sql.Statement → Prop
  | .select query lock, r =>
    ∃ query', r = .select query' lock ∧ query.Becomes { model, ways } query'
  | .update name variableName assignments condition, r =>
    ∃ entity target assignments' condition', r = .update target assignments' condition' ∧
      model.entity name = .ok entity ∧ target.table = entity.table ∧
      Assignment.AllBecome (.ofTarget model ways variableName entity target) entity assignments
        assignments' ∧
      Condition.OptionBecomes (.ofTarget model ways variableName entity target) condition
        condition'
  | .delete name variableName condition, r =>
    ∃ entity target condition', r = .delete target condition' ∧
      model.entity name = .ok entity ∧ target.table = entity.table ∧
      Condition.OptionBecomes (.ofTarget model ways variableName entity target) condition
        condition'

end Entity

end SqlDialects
