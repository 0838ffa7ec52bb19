import SqlDialects.Dialect.Basic
import SqlDialects.Entity.Statement
import SqlDialects.Mapping.Model
import SqlDialects.Sql.Statement

/-!
# Scopes

Each query that is being lowered has a scope with its variables, its tables and the joins that
paths have added to them. Inner queries see the variables of outer ones, and a path in an inner
query adds its joins to the query that binds its variable.
-/

namespace SqlDialects.Entity

/-- A variable stands for an entity in one of the tables of its query. -/
structure Binding where
  entity : Mapping.Entity
  aliasName : String
  /-- Which of the query's tables the alias hangs on. -/
  item : Nat

structure Scope where
  /-- The latest binding first. -/
  bindings : List (String × Binding) := []
  /-- The aliases that paths have joined, by the alias and the association they start from. -/
  pathJoins : List ((String × String) × String) := []
  tables : List Sql.FromItem := []
  allowsPathJoins : Bool := true
  isGrouped : Bool := false
  /-- How many collections are counted by a join and a group. -/
  countedCollections : Nat := 0
  /-- Alias and id column of the owners of those collections. -/
  owners : List (String × String) := []

structure LoweringState where
  nextAlias : Nat := 0
  /-- The innermost scope first. -/
  scopes : List Scope := []

/-- A step of the lowering, which may allot aliases, add to the scopes and fail. -/
abbrev Lower (α : Type) := StateT LoweringState (Except DialectError) α

/-- What a step depends on. -/
structure LoweringContext where
  dialect : Dialect
  model : Mapping.Model
  /-- In a select item of the innermost query. -/
  isInSelect : Bool := false

namespace LoweringContext

def inSelect (c : LoweringContext) : LoweringContext := { c with isInSelect := true }

def outsideSelect (c : LoweringContext) : LoweringContext := { c with isInSelect := false }

def unsupported {α : Type} (c : LoweringContext) (construct : String) : Lower α :=
  throw (c.dialect.unsupported construct)

/-- Fails if the dialect would need the capability. -/
def lacks {α : Type} (c : LoweringContext) (capability : Capability) (construct : String) :
    Lower α :=
  throw (c.dialect.lacks capability construct)

def require (c : LoweringContext) (capability : Capability) (construct : String) : Lower Unit :=
  liftM (c.dialect.require capability construct)

def entity (c : LoweringContext) (name : String) : Lower Mapping.Entity :=
  liftM (c.model.entity name)

end LoweringContext

namespace Lower

def malformed {α : Type} (reason : String) : Lower α := throw (.malformedTree reason)

/-- Aliases are numbered in the order in which they are needed. -/
def freshAlias : Lower String := do
  let state ← get
  set { state with nextAlias := state.nextAlias + 1 }
  return "t" ++ toString state.nextAlias

def property (entity : Mapping.Entity) (name : String) : Lower Mapping.Property :=
  liftM (entity.property name)

/-! ## The stack of scopes -/

def push (scope : Scope) : Lower Unit :=
  modify fun state => { state with scopes := scope :: state.scopes }

def pop : Lower Scope := do
  let state ← get
  match state.scopes with
  | scope :: rest =>
    set { state with scopes := rest }
    return scope
  | [] => malformed "expression outside of a query"

def current : Lower Scope := do
  match (← get).scopes with
  | scope :: _ => return scope
  | [] => malformed "expression outside of a query"

/-- The innermost scope has depth zero. -/
def modifyScope (depth : Nat) (change : Scope → Scope) : Lower Unit :=
  modify fun state => { state with scopes := state.scopes.modify depth change }

def bind (name : String) (binding : Binding) : Lower Unit :=
  modifyScope 0 fun scope => { scope with bindings := (name, binding) :: scope.bindings }

def addTable (table : Sql.FromItem) : Lower Unit :=
  modifyScope 0 fun scope => { scope with tables := scope.tables ++ [table] }

/-- Hangs joins on one of the tables of a scope. -/
def addJoins (depth item : Nat) (joins : List Sql.Join) (missing : String) : Lower Unit := do
  let hasItem := ((← get).scopes[depth]?.bind fun scope => scope.tables[item]?).isSome
  if hasItem then
    let extend (table : Sql.FromItem) := { table with joins := table.joins ++ joins }
    modifyScope depth fun scope => { scope with tables := scope.tables.modify item extend }
  else malformed missing

/-- The innermost binding of a variable and the depth of its scope. -/
def findBinding (name : String) : List Scope → Option (Nat × Binding)
  | [] => none
  | scope :: rest =>
    match scope.bindings.lookup name with
    | some binding => some (0, binding)
    | none => (findBinding name rest).map fun found => (found.1 + 1, found.2)

def lookup (name : String) : Lower (Nat × Binding) := do
  match findBinding name (← get).scopes with
  | some found => return found
  | none => malformed ("unbound identification variable " ++ name)

end Lower

end SqlDialects.Entity
