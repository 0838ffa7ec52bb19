import SqlDialects.Sql.Fragment.OfTree

/-! # Fragments of whole statements -/

namespace SqlDialects.Sql

/-! ## Locks -/

namespace LockOptions

/-- What the lock does instead of waiting: the capability for it, its name and its text. -/
def option? (d : Dialect) (lock : LockOptions) : Option (Capability × String × String) :=
  match lock.wait with
  | .wait => none
  | .noWait => some (.lockNoWait, "nowait", d.rules.noWait)
  | .skipLocked => some (.lockSkipLocked, "skip locked", d.rules.skipLocked)

/-- A product without the option gets a plain lock. -/
def optionText (d : Dialect) (lock : LockOptions) : String :=
  match option? d lock with
  | some (capability, _, text) => if d.supports capability then text else ""
  | none => ""

def optionWarning (d : Dialect) (lock : LockOptions) : Rendered :=
  match option? d lock with
  | some (capability, name, _) =>
    if d.supports capability then .empty else .warning (.lockOptionIgnored d.name name)
  | none => .empty

def modeText (forRead forWrite : String) (lock : LockOptions) : String :=
  match lock.mode with
  | .read => forRead
  | .write => forWrite

end LockOptions

/-- A query whose rows are locked. A set operation has no rows of its own to lock. -/
def lockedQuery (c : Context) (query : Query) (lock : LockOptions) : Rendered :=
  let d := c.dialect
  let option := LockOptions.optionText d lock
  if query.isGroup then c.refuse "locking a set operation"
  else
    match d.rules.lockSyntax with
    | .clause => .concat
      [LockOptions.optionWarning d lock, query.render c "",
        .text (LockOptions.modeText d.rules.forShare d.rules.forUpdate lock ++ option)]
    | .tableHint update share => .concat
      [LockOptions.optionWarning d lock,
        query.render c
          (" with (" ++ LockOptions.modeText share update lock ++ option ++ ")")]
    | .omitted => .concat [.warning (.lockClauseOmitted d.name), query.render c ""]

/-! ## Changes -/

/-- One row of values, which has to be as long as the list of columns. -/
def insertRow (c : Context) (columns index : Nat) (values : List Expression) : Rendered :=
  if values.length = columns then
    .parenthesized (.separated ", " (Expression.renderAll c values))
  else
    .malformed ("insert row " ++ toString index ++ " has " ++ toString values.length
      ++ " values for " ++ toString columns ++ " columns")

def InsertSource.render (c : Context) (columns : Nat) : InsertSource → Rendered
  | .rows values =>
    if values.isEmpty then .malformed "insert without rows"
    else .concat [.text "values ",
      .separated ", " (values.mapIdx fun index row => insertRow c columns index row)]
  | .query source => source.render c.nested ""

def Assignment.render (c : Context) (assignment : Assignment) : Rendered :=
  .concat [.name assignment.column, .text " = ", assignment.value.render c]

/-! ## Statements -/

def Statement.render (d : Dialect) : Statement → Rendered
  | .select query none => query.render { dialect := d } ""
  | .select query (some lock) => lockedQuery { dialect := d } query lock
  | .insert table columns source =>
    if columns.isEmpty then .malformed "insert without columns"
    else .concat
      [.text "insert into ", .table table, .text " (",
        .separated ", " (columns.map Rendered.name), .text ") ",
        source.render { dialect := d } columns.length]
  | .update target assignments condition =>
    let c : Context := { dialect := d, bareAlias := some target.aliasName }
    if assignments.isEmpty then .malformed "update without assignments"
    else .concat
      [.text "update ", .table target.table, .text " set ",
        .separated ", " (assignments.map (Assignment.render c)),
        .clause " where " (Condition.renderOption c condition)]
  | .delete target condition =>
    let c : Context := { dialect := d, bareAlias := some target.aliasName }
    .concat
      [.text "delete from ", .table target.table,
        .clause " where " (Condition.renderOption c condition)]

end SqlDialects.Sql
